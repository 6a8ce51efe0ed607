import Reclaim.Tracking.System

/-!
Letting the workers catch up: each goes on, calling the strategies of the records it takes, until
it waits for an item or for a strategy, or has ended.
-/

namespace Reclaim

/-- What the workers share: the trackers, the files, and the paths noted by strategies. -/
structure Work where
  system : System
  host : Host
  notes : List String

namespace Work

def inHand? (w : Work) (index : Nat) : Option Record :=
  match w.system.tracker? index with
  | some t =>
      match t.phase with
      | .deleting record => some record
      | _ => none
  | none => none

def threadName (w : Work) (index : Nat) : String :=
  match w.system.tracker? index with
  | some t => t.threadName
  | none => ""

def logOf (w : Work) (index : Nat) (events : List Event) : List LogLine :=
  events.flatMap (·.log (w.threadName index))

/-- One step of a worker, the call of a strategy included. There is none if it has to wait. -/
def step (w : Work) (index : Nat) : Option (Work × List LogLine) :=
  match w.inHand? index with
  | some record =>
      let run := record.deleteQuietly w.host
      match run.outcome with
      | none => none
      | some outcome =>
          match w.system.finish index outcome with
          | none => none
          | some (system, events) =>
              some (⟨system, run.host, w.notes ++ run.noted.toList⟩,
                run.log ++ w.logOf index events)
  | none =>
      match w.system.advance index with
      | none => none
      | some (system, events) => some ({ w with system }, w.logOf index events)

def steps (index : Nat) : Nat → Work → Work × List LogLine
  | 0, w => (w, [])
  | n + 1, w =>
      match w.step index with
      | none => (w, [])
      | some (w, log) =>
          let (w, more) := steps index n w
          (w, log ++ more)

/-- Steps that suffice: four for each item, and those of the round that has begun. -/
def bound (w : Work) (index : Nat) : Nat :=
  match w.system.tracker? index with
  | some t => 4 * t.queue.length + 5
  | none => 0

def settle (w : Work) (index : Nat) : Work × List LogLine :=
  steps index (w.bound index) w

def catchUp (w : Work) : Work × List (Nat × List LogLine) :=
  (List.range w.system.trackers.length).foldl
    (fun (w, logs) index =>
      let (w, log) := w.settle index
      (w, logs ++ [(index, log)]))
    (w, [])

end Work
end Reclaim
