import Reclaim.Path.Argument
import Reclaim.Tracking.Tracker

/-!
Trackers and the owners they watch. A watch joins a record to an owner and to the channel that
the record is sent on when the owner is reclaimed: the queue of a tracker, or one channel that
belongs to no tracker. The watches of one owner fire newest first, and each fires once.
-/

namespace Reclaim

inductive Channel
  | tracker (index : Nat)
  | free
deriving DecidableEq, Repr

structure Watch where
  record : Record
  owner : Nat
  channel : Channel
deriving DecidableEq, Repr

/-- Trackers, the watches that have not fired, newest first, what has come on the channel that
belongs to no tracker, and the number of the next record. -/
structure System where
  trackers : List Tracker
  watches : List Watch
  free : List Record
  nextRecord : Nat
deriving DecidableEq, Repr

inductive TrackError
  | path (error : PathError)
  | shutdown
  | unwatchable (type : String)
  | noTracker
deriving DecidableEq, Repr

def TrackError.message : TrackError → String
  | path error => error.message
  | shutdown => "No new paths can be tracked once exit_when_finished() is called"
  | unwatchable type => "cannot create weak reference to '" ++ type ++ "' object"
  | noTracker => ""

def TrackError.kind : TrackError → ErrorKind
  | path error => error.kind
  | shutdown => .shutdown
  | unwatchable _ => .type
  | noTracker => .any

/-- How a call that tracks a path fails: it is refused, or no thread can be had for the worker, or
there is no name of a strategy to report. -/
inductive CallError
  | refused (error : TrackError)
  | noThread
  | nameless
deriving DecidableEq, Repr

namespace System

def empty : System := ⟨[], [], [], 0⟩

def tracker? (s : System) (index : Nat) : Option Tracker :=
  s.trackers[index]?

def setTracker (s : System) (index : Nat) (t : Tracker) : System :=
  { s with trackers := s.trackers.set index t }

def addTracker (s : System) (t : Tracker) : System :=
  { s with trackers := s.trackers ++ [t] }

theorem tracker?_setTracker {s : System} {index : Nat} (h : index < s.trackers.length)
    (t : Tracker) (j : Nat) :
    (s.setTracker index t).tracker? j = if j = index then some t else s.tracker? j := by
  by_cases hj : j = index
  · subst hj
    simp [tracker?, setTracker, h]
  · have hj' : index ≠ j := fun e => hj e.symm
    simp [tracker?, setTracker, List.getElem?_set_ne hj', hj]

@[simp] theorem watches_setTracker (s : System) (index : Nat) (t : Tracker) :
    (s.setTracker index t).watches = s.watches := rfl

@[simp] theorem watches_addTracker (s : System) (t : Tracker) :
    (s.addTracker t).watches = s.watches := rfl

def watch (s : System) (record : Record) (owner : Nat) (channel : Channel) : System :=
  { s with watches := ⟨record, owner, channel⟩ :: s.watches, nextRecord := s.nextRecord + 1 }

/-- Tracks a path that is already in stored form. -/
def trackStored (s : System) (index : Nat) (path : String) (owner : Owner)
    (strategy : Option Strategy) : Except TrackError (System × List Event) :=
  match s.tracker? index with
  | none => .error .noTracker
  | some t =>
      if t.exiting then .error .shutdown
      else match owner.unwatchable with
        | some type => .error (.unwatchable type)
        | none =>
            let record : Record := ⟨s.nextRecord, path, t.strategyFor strategy⟩
            let (t, events) := t.accept record
            .ok ((s.setTracker index t).watch record owner.id (.tracker index),
              events ++ [.tracked record owner.id])

/-- Tracks a path until its owner is reclaimed, unless this is refused. The path is checked first,
then whether the tracker still accepts paths, then whether the owner can be watched. -/
def track (s : System) (index : Nat) (cwd : Option Path) (path : PathArgument) (owner : Owner)
    (strategy : Option Strategy) : Except TrackError (System × List Event) :=
  match path.stored cwd with
  | .error error => .error (.path error)
  | .ok stored => s.trackStored index stored owner strategy

def labelFor (s : System) (index : Nat) (strategy : Option Strategy) : Option String :=
  (s.tracker? index).bind (·.labelFor strategy)

/-- A call that tracks a path: its answer, and the trackers and events as it leaves them. The last
thing that a call does is to report the name of its strategy, when the record is registered. -/
def trackCall (s : System) (index : Nat) (cwd : Option Path) (path : PathArgument) (owner : Owner)
    (strategy : Option Strategy) : Except CallError Unit × System × List Event :=
  match s.track index cwd path owner strategy with
  | .error error => (.error (.refused error), s, [])
  | .ok tracked =>
      match s.labelFor index strategy with
      | none => (.error .nameless, tracked)
      | some _ => (.ok (), tracked)

def deliver (s : System) (w : Watch) : System :=
  match w.channel with
  | .free => { s with free := s.free ++ [w.record] }
  | .tracker index =>
      match s.tracker? index with
      | none => s
      | some t => s.setTracker index (t.send (.record w.record))

def reclaim (s : System) (owner : Nat) : System :=
  let fired := s.watches.filter fun w => w.owner = owner
  let kept := s.watches.filter fun w => w.owner ≠ owner
  fired.foldl deliver { s with watches := kept }

/-- Gives up a watch that nobody holds any more. -/
def forget (s : System) (record : Nat) : System :=
  { s with watches := s.watches.filter fun w => w.record.id ≠ record }

def requestExit (s : System) (index : Nat) : System × List Event :=
  match s.tracker? index with
  | none => (s, [])
  | some t =>
      let (t, events) := t.requestExit
      (s.setTracker index t, events)

/-- A wake-up call that nobody asked for. -/
def wake (s : System) (index : Nat) : System :=
  match s.tracker? index with
  | none => s
  | some t => s.setTracker index (t.send .wake)

/-- One step of a worker by itself. -/
def advance (s : System) (index : Nat) : Option (System × List Event) :=
  match s.tracker? index with
  | none => none
  | some t => t.advance.map fun (t, events) => (s.setTracker index t, events)

def finish (s : System) (index : Nat) (outcome : Outcome) : Option (System × List Event) :=
  match s.tracker? index with
  | none => none
  | some t => (t.finish outcome).map fun (t, events) => (s.setTracker index t, events)

end System
end Reclaim
