import Reclaim.Deletion.Quiet
import Reclaim.Text.Quoted

/-!
Records of tracked paths, and the owners they wait for. Records are told apart by their numbers
alone, so that two records of the same path and owner stay distinct.
-/

namespace Reclaim

structure Record where
  id : Nat
  path : String
  strategy : Strategy
deriving DecidableEq, Repr

namespace Record

def describe (record : Record) : String :=
  "Tracker(path=" ++ Text.quoted record.path ++ ", strategy=" ++ record.strategy.name ++ ")"

def invocation (record : Record) : Invocation :=
  ⟨record.strategy, record.path, some (.ofText record.path)⟩

def deleteQuietly (record : Record) (host : Host) : QuietRun :=
  record.strategy.deleteQuietly record.path (some (.ofText record.path)) host

@[simp] theorem invoked_deleteQuietly (record : Record) (host : Host) :
    (record.deleteQuietly host).invoked = [record.invocation] :=
  Strategy.invoked_deleteQuietly ..

end Record

/-- An owner as a tracker sees it, with its type if its end cannot be watched. -/
structure Owner where
  id : Nat
  unwatchable : Option String
deriving DecidableEq, Repr

end Reclaim
