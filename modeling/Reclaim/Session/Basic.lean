import Reclaim.Command.Run
import Reclaim.Theme.Store
import Reclaim.Theme.Style
import Reclaim.Tracking.CatchUp
import Reclaim.Tracking.Ownership
import Reclaim.Tracking.Temporary

/-!
Sessions: scripts that create owners, trackers and records by name, act on files, and look at
what has become of them. This module holds the steps of a script, what they answer, and the state
that they act on.
-/

namespace Reclaim

open Files

namespace Strategy

/-- The strategies that a script can name: the built-in ones, and those by which the handling of
answers, errors and delays is observed. -/
def scripted : List Strategy :=
  [normal, force, ⟨"counting", .single, .notes⟩, ⟨"exploding", .single, .breaks⟩,
   ⟨"refusing", .single, .declines⟩, ⟨"failing", .failing "cannot", .attempts⟩,
   ⟨"gated", .single, .waits⟩]

def scripted? (name : String) : Option Strategy :=
  scripted.find? (·.name = name)

end Strategy

namespace Session

inductive Step
  | put (path : String) (entry : Entry)
  | remove (path : String)
  | enter (directory : String)
  | fault (fault : Fault)
  | clearFaults
  | delete (strategy : String) (path : PathArgument)
  | deleteQuietly (strategy : String) (path : PathArgument)
  | loadConfig (path : Option String)
  | loadConfigOrDefault (path : Option String)
  | saveConfig (fields : Fields) (path : Option String)
  | loadColours (path : Option String)
  | loadTheme (path : Option String)
  | loadStyles
  | tracker (name : String) (threadName : Option String) (strategy : Option String)
  | trackerOf (name : String) (fields : Fields)
  | owner (name : String) (unwatchable : Option String) (cyclic : Bool) (holds : Option String)
  | drop (owner : String)
  | collect
  | track (tracker : String) (path : PathArgument) (owner : String) (strategy : Option String)
  | trackTemporary (tracker : String) (kind : TemporaryKind) (name : TemporaryName)
      (owner : String) (strategy : Option String)
  | exit (tracker : String)
  | join (tracker : String)
  | wake (tracker : String)
  | thread (tracker : String)
  | notes
  | blocked
  | release (outcome : Outcome)
  | record (name : String) (path : String) (owner : String) (strategy : Option String)
  | describe (record : String)
  | compare (first second : String)
  | deleteRecord (record : String)
  | forget (record : String)
  | drain
  | command (arguments : List String)

inductive Answer
  | done
  | text (text : String)
  | textOrNone (text : Option String)
  | flag (value : Bool)
  | texts (texts : List String)
  | config (config : Config)
  | colours (colours : Option Fields)
  | theme (theme : Theme)
  | styles (styles : List Style)
  | tracker (threadName : String) (defaultStrategy : Strategy)
  | record (record : Record) (watching : Bool)
  | same (equal : Bool)
  | ending (ending : Command.Ending)

inductive Trouble
  -- a name that stands for nothing
  | unknownName
  -- a value where a path is needed
  | notPath
  | broken
  | files (failure : Failure)
  | deletion (error : DeletionError)
  | config (error : ConfigError)
  | theme (failure : ThemeFailure)
  | invalid (issues : List Issue)
  | style (bad : Style.BadWord)
  | track (error : TrackError)

end Session

structure Session where
  work : Work
  environment : Environment
  -- the directory whose contents are reported
  root : Place
  trackers : List (String × Nat)
  ownership : Ownership
  -- the records that have a name
  records : List (String × Record)
  -- the names that records were given, by the numbers of the records
  recordNames : List (Nat × String)
  -- the contents of the root as last reported
  reported : List (String × Entry)

namespace Session

def host (s : Session) : Host := s.work.host

def system (s : Session) : System := s.work.system

def withHost (s : Session) (host : Host) : Session :=
  { s with work := { s.work with host } }

def withSystem (s : Session) (system : System) : Session :=
  { s with work := { s.work with system } }

def listing (s : Session) : List (String × Entry) :=
  s.host.tree.listing s.root

def start (rootName : String) (environment : Environment) : Session where
  work :=
    { system := .empty
      host :=
        { tree := Tree.empty.put [rootName] .directory
          cwd := [rootName]
          temporary := Host.textOf [rootName]
          nextName := 1
          faults := [] }
      notes := [] }
  environment := environment
  root := [rootName]
  trackers := []
  ownership := .empty
  records := []
  recordNames := []
  reported := []

end Session
end Reclaim
