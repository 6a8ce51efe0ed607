import Reclaim.Tracking.CatchUp
import Reclaim.Tracking.Temporary

/-!
Courses of events: what callers and workers have come to by acting in some order. A course holds
the trackers and the files together with the owners that are gone and the history of what has
happened at each tracker.

A caller's action is one step, with two exceptions. A temporary entry is made in one step and
tracked in another. A request to finish sets the exit flag in one step and wakes the worker in
another; between the two no other caller can enter the tracker, but its worker can go on. A worker
tests the exit flag, tests the registry, receives an item and comes to the end of a strategy in
steps of their own. To receive a record is to begin its deletion, which asks a strategy; what has
been asked is on record. How the strategy ends is left open: it may end with any outcome, leave the
files in any state, or not end at all. Only a strategy that has been asked can end.
-/

namespace Reclaim

/-- Trackers and files, the paths noted by strategies, the owners that have been reclaimed, the
trackers at which a request to finish is under way, what has happened at each tracker, and what has
been asked of strategies on behalf of each record, oldest first. -/
structure Course where
  system : System
  host : Host
  notes : List String
  reclaimed : List Nat
  closing : List Nat
  history : List (Nat × Event)
  invoked : List (Nat × Invocation)

inductive Action
  | addTracker (threadName : String) (strategy : Option Strategy)
  | track (index : Nat) (path : PathArgument) (owner : Owner) (strategy : Option Strategy)
  | makeTemporary (index : Nat) (kind : TemporaryKind) (name : TemporaryName)
  | trackMade (index : Nat) (kind : TemporaryKind) (text : String) (owner : Owner)
      (strategy : Option Strategy)
  | reclaim (owner : Nat)
  | beginExit (index : Nat)
  | endExit (index : Nat)
  | advance (index : Nat)
  | finish (index : Nat) (run : QuietRun)
  -- something else happens to the files, the current directory or the faults
  | elsewhere (host : Host)

/-- The strategies that an event asks, each on behalf of a record. -/
def Event.invokes (host : Host) : Event → List (Nat × Invocation)
  | taken record => (record.deleteQuietly host).invoked.map fun i => (record.id, i)
  | _ => []

def Host.bare : Host where
  tree := .empty
  cwd := []
  temporary := "/tmp"
  nextName := 1
  faults := []

namespace Course

def start (host : Host) : Course := ⟨.empty, host, [], [], [], [], []⟩

def work (c : Course) : Work := ⟨c.system, c.host, c.notes⟩

def note (c : Course) (index : Nat) (system : System) (events : List Event) : Course :=
  { c with
    system
    history := c.history ++ events.map fun e => (index, e)
    invoked := c.invoked ++ events.flatMap (Event.invokes c.host) }

def conclude? (c : Course) (index : Nat) (record : Record) (run : QuietRun) : Option Course :=
  if run.invoked = (record.deleteQuietly c.host).invoked then
    match run.outcome with
    | none => none
    | some outcome =>
        match c.system.finish index outcome with
        | none => none
        | some (system, events) =>
            some { c.note index system events with
              host := run.host, notes := c.notes ++ run.noted.toList }
  else none

/-- Whether a caller that holds an owner can enter a tracker. -/
def admits (c : Course) (index : Nat) (owner : Owner) : Bool :=
  index ∉ c.closing && owner.id ∉ c.reclaimed

/-- The course after an action, if the action is possible. A call that is refused is possible
and changes nothing but, where it had made an entry, the files; one that fails later leaves what it
has done. -/
def next? (c : Course) : Action → Option Course
  | .addTracker threadName strategy =>
      some { c with system := c.system.addTracker (.new threadName strategy) }
  | .track index path owner strategy =>
      if c.admits index owner then
        match c.system.track index c.host.currentDirectory? path owner strategy with
        | .ok (system, events) => some (c.note index system events)
        | .error _ => some c
      else none
  | .makeTemporary index kind name =>
      some { c with host := (c.system.makeTemporary index kind name c.host).2 }
  | .trackMade index kind text owner strategy =>
      if c.admits index owner then
        match c.system.trackMade index kind text owner strategy c.host with
        | (_, (system, events), host) => some { c.note index system events with host }
      else none
  | .reclaim owner =>
      some { c with system := c.system.reclaim owner, reclaimed := owner :: c.reclaimed }
  | .beginExit index =>
      -- a second caller waits until the first request has returned
      if index ∈ c.closing then none
      else match c.system.tracker? index with
        | none => some c
        | some t =>
            if t.exiting then some c
            else some { c with
              system := c.system.setTracker index t.close, closing := index :: c.closing }
  | .endExit index =>
      if index ∈ c.closing then
        match c.system.tracker? index with
        | none => none
        | some t =>
            some { c.note index (c.system.setTracker index t.rouse) [.exitRequested t.count] with
              closing := c.closing.filter (· ≠ index) }
      else none
  | .advance index =>
      match c.system.advance index with
      | none => none
      | some (system, events) => some (c.note index system events)
  | .finish index run =>
      match c.work.inHand? index with
      | none => none
      | some record => c.conclude? index record run
  | .elsewhere host => some { c with host }

def perform? (c : Course) : List Action → Option Course
  | [] => some c
  | action :: rest =>
      match c.next? action with
      | none => none
      | some c => c.perform? rest

/-- The courses that some order of actions leads to, from any state of the files. -/
inductive Reachable : Course → Prop
  | start (host : Host) : Reachable (start host)
  | step {c c' : Course} (action : Action) :
      Reachable c → c.next? action = some c' → Reachable c'

theorem Reachable.perform {c c' : Course} {actions : List Action} (hc : c.Reachable)
    (h : c.perform? actions = some c') : c'.Reachable := by
  induction actions generalizing c with
  | nil =>
      simp only [perform?, Option.some.injEq] at h
      exact h ▸ hc
  | cons action rest ih =>
      simp only [perform?] at h
      split at h
      · simp at h
      · rename_i c₁ h₁
        exact ih (hc.step action h₁) h

end Course
end Reclaim
