import Reclaim.Config.Basic
import Reclaim.Tracking.Record

/-!
One tracker and its worker. The registry holds the records whose deletion has not begun; the
queue brings the records of reclaimed owners, and a wake-up call when the tracker is asked to
finish. The worker starts with the first record. In each round it tests first whether the exit
is asked for and then whether the registry is empty, and ends if both are so; otherwise it
receives the next item. A received record leaves the registry before its strategy is called. A
strategy that breaks off counts as one that has failed, but an answer of which the truth cannot be
told is an error in the worker itself, which falls and is not started again.
-/

namespace Reclaim

inductive Item
  | record (record : Record)
  | wake
deriving DecidableEq, Repr

inductive Phase
  | unstarted
  | testingExit
  | testingCount
  | receiving
  | deleting (record : Record)
  | ended
  | fallen
deriving DecidableEq, Repr

/-- A tracker. It may have been made without a strategy to use by default. -/
structure Tracker where
  threadName : String
  defaultStrategy : Option Strategy
  registry : List Record
  queue : List Item
  failures : List String
  exiting : Bool
  phase : Phase
deriving DecidableEq, Repr

inductive Event
  | tracked (record : Record) (owner : Nat)
  | exitRequested (remaining : Nat)
  | started
  | taken (record : Record)
  | finished (record : Record) (outcome : Outcome)
  | ended
deriving DecidableEq, Repr

namespace Tracker

def new (threadName : String) (defaultStrategy : Option Strategy) : Tracker where
  threadName := threadName
  defaultStrategy := defaultStrategy
  registry := []
  queue := []
  failures := []
  exiting := false
  phase := .unstarted

def ofConfig (config : Config) : Except String Tracker :=
  match Builtin.named? config.defaultStrategy.name with
  | some builtin => .ok (.new config.threadName builtin.strategy)
  | none => .error (Builtin.unknownMessage config.defaultStrategy.name)

def chosen (t : Tracker) (strategy : Option Strategy) : Option Strategy :=
  strategy <|> t.defaultStrategy

/-- The strategy that a record gets. Records without one are deleted normally. -/
def strategyFor (t : Tracker) (strategy : Option Strategy) : Strategy :=
  (t.chosen strategy).getD .normal

@[simp] theorem strategyFor_some (t : Tracker) (strategy : Strategy) :
    t.strategyFor (some strategy) = strategy := rfl

/-- The name of the strategy that a call goes by. There is none if the call goes by no strategy, or
by one without a name. -/
def labelFor (t : Tracker) (strategy : Option Strategy) : Option String :=
  (t.chosen strategy).bind Strategy.label

def count (t : Tracker) : Nat :=
  t.registry.length

def isStarted (t : Tracker) : Bool :=
  t.phase != .unstarted

def isRunning (t : Tracker) : Bool :=
  t.phase != .unstarted && t.phase != .ended && t.phase != .fallen

/-- Whether no worker is at work any more, so that waiting for it returns. -/
def isJoined (t : Tracker) : Bool :=
  !t.isRunning

def describe (t : Tracker) : String :=
  "FileCleaningTracker(tracked=" ++ toString t.count ++ ", failures="
    ++ toString t.failures.length ++ ", exit_when_finished="
    ++ (if t.exiting then "True" else "False") ++ ")"

def accept (t : Tracker) (record : Record) : Tracker × List Event :=
  if t.phase = .unstarted then
    ({ t with registry := t.registry ++ [record], phase := .testingExit }, [.started])
  else ({ t with registry := t.registry ++ [record] }, [])

def send (t : Tracker) (item : Item) : Tracker :=
  { t with queue := t.queue ++ [item] }

@[simp] theorem registry_accept (t : Tracker) (record : Record) :
    (t.accept record).1.registry = t.registry ++ [record] := by
  unfold accept
  split <;> rfl

@[simp] theorem queue_accept (t : Tracker) (record : Record) :
    (t.accept record).1.queue = t.queue := by
  unfold accept
  split <;> rfl

@[simp] theorem queue_send (t : Tracker) (item : Item) :
    (t.send item).queue = t.queue ++ [item] := rfl

@[simp] theorem registry_send (t : Tracker) (item : Item) :
    (t.send item).registry = t.registry := rfl

def close (t : Tracker) : Tracker :=
  { t with exiting := true }

/-- Sends the worker a wake-up call, if it has been started. -/
def rouse (t : Tracker) : Tracker :=
  if t.isStarted then t.send .wake else t

/-- Asks the tracker to finish; a second request changes nothing. -/
def requestExit (t : Tracker) : Tracker × List Event :=
  if t.exiting then (t, []) else (t.close.rouse, [.exitRequested t.count])

def withdraw (registry : List Record) (record : Record) : List Record :=
  registry.filter fun r => r.id ≠ record.id

/-- The next step of the worker by itself; there is none while it waits, while a strategy is at
work, and before its start and after its end. -/
def advance (t : Tracker) : Option (Tracker × List Event) :=
  match t.phase with
  | .testingExit =>
      some ({ t with phase := if t.exiting then .testingCount else .receiving }, [])
  | .testingCount =>
      if t.registry = [] then some ({ t with phase := .ended }, [.ended])
      else some ({ t with phase := .receiving }, [])
  | .receiving =>
      match t.queue with
      | [] => none
      | .wake :: queue => some ({ t with queue := queue, phase := .testingExit }, [])
      | .record r :: queue =>
          some ({ t with queue := queue, registry := withdraw t.registry r, phase := .deleting r },
            [.taken r])
  | _ => none

def conclude (t : Tracker) (record : Record) (outcome : Outcome) : Tracker :=
  { t with
    failures := if outcome.isFailure then t.failures ++ [record.path] else t.failures
    phase := if outcome = .undecided then .fallen else .testingExit }

def finish (t : Tracker) (outcome : Outcome) : Option (Tracker × List Event) :=
  match t.phase with
  | .deleting r => some (t.conclude r outcome, [.finished r outcome])
  | _ => none

end Tracker

namespace Event

def log (threadName : String) : Event → List LogLine
  | tracked record _ => [⟨.debug, .tracking,
      "Tracking " ++ record.path ++ " (strategy=" ++ record.strategy.name ++ ")", none⟩]
  | exitRequested remaining => [⟨.debug, .tracking,
      "Exit requested with " ++ toString remaining ++ " path(s) still tracked", none⟩]
  | started => [⟨.debug, .tracking, threadName ++ " started", none⟩]
  | taken _ => []
  | finished record .deleted => [⟨.debug, .tracking, "Deleted " ++ record.path, none⟩]
  | finished record .refused => [⟨.warning, .tracking, "Failed to delete " ++ record.path, none⟩]
  | finished record .broken =>
      [⟨.error, .tracking, "Unexpected error deleting " ++ record.path, none⟩,
       ⟨.warning, .tracking, "Failed to delete " ++ record.path, none⟩]
  | finished _ .undecided => []
  | ended => [⟨.debug, .tracking, threadName ++ " finished", none⟩]

/-- Whether an event happens in the worker and not in a caller. -/
def ofWorker : Event → Bool
  | tracked _ _ | exitRequested _ => false
  | _ => true

end Event
end Reclaim
