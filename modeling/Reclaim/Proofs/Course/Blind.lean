import Reclaim.Proofs.Course.History
import Reclaim.Proofs.Path.Absolute

/-!
Courses seen by someone who can tell neither whether strategies fail nor what becomes of the files:
every end that a worker survives looks like a deletion, and the lists of failures, the notes and the
files are hidden. What an action does to a course seen like this can be told from what the trackers
are asked to do. So the failure of a strategy has no influence on anything else that happens at the
trackers.
-/

namespace Reclaim

def Outcome.blind : Outcome → Outcome
  | undecided => undecided
  | _ => deleted

def Event.blind : Event → Event
  | finished record outcome => finished record outcome.blind
  | e => e

namespace Event

@[simp] theorem accepted?_blind (e : Event) : e.blind.accepted? = e.accepted? := by
  cases e <;> rfl

@[simp] theorem taken?_blind (e : Event) : e.blind.taken? = e.taken? := by
  cases e <;> rfl

@[simp] theorem finished?_blind (e : Event) : e.blind.finished? = e.finished? := by
  cases e <;> rfl

end Event

namespace Tracker

def blind (t : Tracker) : Tracker := { t with failures := [] }

@[simp] theorem strategyFor_blind (t : Tracker) (strategy : Option Strategy) :
    t.blind.strategyFor strategy = t.strategyFor strategy := rfl

end Tracker

namespace System

def blind (s : System) : System := { s with trackers := s.trackers.map Tracker.blind }

@[simp] theorem nextRecord_blind (s : System) : s.blind.nextRecord = s.nextRecord := rfl

@[simp] theorem watch_blind (s : System) (record : Record) (owner : Nat) (channel : Channel) :
    s.blind.watch record owner channel = (s.watch record owner channel).blind := rfl

end System

def PathArgument.asked (cwd : Option Path) (path : PathArgument) : PathArgument :=
  match path.stored cwd with
  | .ok stored => text stored
  | .error _ => absent

/-- What an action asks of the trackers, if the current directory is as given. -/
def Action.asked (cwd : Option Path) : Action → Action
  | track index path owner strategy => track index (path.asked cwd) owner strategy
  | trackMade index _ text owner strategy =>
      track index ((PathArgument.text text).asked cwd) owner strategy
  | finish index run =>
      finish index ⟨run.outcome.map Outcome.blind, .bare, none, [], run.invoked⟩
  | makeTemporary .. | elsewhere _ => elsewhere .bare
  | action => action

namespace Course

def blind (c : Course) : Course where
  system := c.system.blind
  host := .bare
  notes := []
  reclaimed := c.reclaimed
  closing := c.closing
  history := c.history.map fun e => (e.1, e.2.blind)
  invoked := c.invoked

def asked (c : Course) : List Action → List Action
  | [] => []
  | action :: rest =>
      action.asked c.host.currentDirectory? ::
        match c.next? action with
        | none => []
        | some c => c.asked rest

end Course
end Reclaim
