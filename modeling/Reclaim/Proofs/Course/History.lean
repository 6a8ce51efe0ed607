import Reclaim.Proofs.Course.Change

/-!
What can be read off the history of a course: the records accepted so far with their owners, the
records that workers have taken, and the events at one tracker.
-/

namespace Reclaim

/-- A record that a tracker has accepted, with the owner that it waits for. -/
structure Acceptance where
  index : Nat
  record : Record
  owner : Nat
deriving DecidableEq

namespace Event

def acceptance? (index : Nat) : Event → Option Acceptance
  | tracked record owner => some ⟨index, record, owner⟩
  | _ => none

def accepted? : Event → Option Record
  | tracked record _ => some record
  | _ => none

def taken? : Event → Option Record
  | taken record => some record
  | _ => none

def finished? : Event → Option Record
  | finished record _ => some record
  | _ => none

end Event

def Item.record? : Item → Option Record
  | record r => some r
  | wake => none

def Acceptance.watch (a : Acceptance) : Watch := ⟨a.record, a.owner, .tracker a.index⟩

namespace Course

def acceptances (c : Course) : List Acceptance :=
  c.history.filterMap fun e => e.2.acceptance? e.1

def taken (c : Course) : List (Nat × Record) :=
  c.history.filterMap fun e => e.2.taken?.map fun r => (e.1, r)

def takenIds (c : Course) : List Nat :=
  c.taken.map (·.2.id)

def eventsAt (c : Course) (index : Nat) : List Event :=
  (c.history.filter fun e => e.1 = index).map (·.2)

/-- The records that a tracker has accepted, in order. -/
def acceptedAt (c : Course) (index : Nat) : List Record :=
  (c.eventsAt index).filterMap Event.accepted?

/-- The records that the worker of a tracker has taken, in order. -/
def takenAt (c : Course) (index : Nat) : List Record :=
  (c.eventsAt index).filterMap Event.taken?

def registryAt (c : Course) (index : Nat) : List Record :=
  match c.system.tracker? index with
  | some t => t.registry
  | none => []

def queueAt (c : Course) (index : Nat) : List Item :=
  match c.system.tracker? index with
  | some t => t.queue
  | none => []

@[simp] theorem acceptances_start (host : Host) : (start host).acceptances = [] := rfl

@[simp] theorem taken_start (host : Host) : (start host).taken = [] := rfl

@[simp] theorem eventsAt_start (host : Host) (index : Nat) :
    (start host).eventsAt index = [] := rfl

theorem acceptances_note (c : Course) (index : Nat) (s : System) (events : List Event) :
    (c.note index s events).acceptances =
      c.acceptances ++ events.filterMap (·.acceptance? index) := by
  simp [acceptances, note, List.filterMap_map]

theorem taken_note (c : Course) (index : Nat) (s : System) (events : List Event) :
    (c.note index s events).taken =
      c.taken ++ (events.filterMap Event.taken?).map fun r => (index, r) := by
  simp [taken, note, List.filterMap_map, List.map_filterMap]

@[simp] theorem invoked_start (host : Host) : (start host).invoked = [] := rfl

/-- To take a record is to ask its strategy, once, whatever the files are like. -/
theorem flatMap_invokes (host : Host) (events : List Event) :
    events.flatMap (Event.invokes host) =
      (events.filterMap Event.taken?).map fun r => (r.id, r.invocation) := by
  induction events with
  | nil => rfl
  | cons e events ih =>
      rw [List.flatMap_cons, ih]
      cases e <;> simp [Event.invokes, Event.taken?, List.filterMap_cons]

theorem eventsAt_note (c : Course) (index : Nat) (s : System) (events : List Event) (j : Nat) :
    (c.note index s events).eventsAt j =
      c.eventsAt j ++ if index = j then events else [] := by
  by_cases h : index = j
  · simp [eventsAt, note, h, List.filter_map, Function.comp_def]
  · simp [eventsAt, note, h, List.filter_map, Function.comp_def]

/-- Both readings of the history tell the same records accepted at a tracker. -/
theorem map_record_acceptances (c : Course) (index : Nat) :
    (c.acceptances.filter fun a => a.index = index).map (·.record) = c.acceptedAt index := by
  simp only [acceptances, acceptedAt, eventsAt]
  induction c.history with
  | nil => rfl
  | cons e history ih =>
      obtain ⟨i, e⟩ := e
      by_cases hi : i = index <;> cases e <;>
        simp_all [List.filterMap_cons, Event.acceptance?, Event.accepted?]

theorem map_record_taken (c : Course) (index : Nat) :
    (c.taken.filter fun e => e.1 = index).map (·.2) = c.takenAt index := by
  simp only [taken, takenAt, eventsAt]
  induction c.history with
  | nil => rfl
  | cons e history ih =>
      obtain ⟨i, e⟩ := e
      by_cases hi : i = index <;> cases e <;>
        simp_all [List.filterMap_cons, Event.taken?]

theorem mem_takenAt {c : Course} {index : Nat} {record : Record} :
    record ∈ c.takenAt index ↔ (index, record) ∈ c.taken := by
  simp [← map_record_taken]

theorem mem_acceptedAt {c : Course} {index : Nat} {record : Record} :
    record ∈ c.acceptedAt index ↔ ∃ owner, ⟨index, record, owner⟩ ∈ c.acceptances := by
  rw [← map_record_acceptances]
  simp only [List.mem_map, List.mem_filter, decide_eq_true_eq]
  constructor
  · rintro ⟨a, ⟨ha, rfl⟩, rfl⟩
    exact ⟨a.owner, ha⟩
  · rintro ⟨owner, ha⟩
    exact ⟨_, ⟨ha, rfl⟩, rfl⟩

end Course

namespace Tracker

@[simp] theorem acceptances_accept (t : Tracker) (record : Record) (index : Nat) :
    (t.accept record).2.filterMap (·.acceptance? index) = [] := by
  unfold accept
  split <;> rfl

@[simp] theorem taken_accept (t : Tracker) (record : Record) :
    (t.accept record).2.filterMap Event.taken? = [] := by
  unfold accept
  split <;> rfl

theorem Works.acceptances {t t' : Tracker} {events : List Event} (h : t.Works t' events)
    (index : Nat) : events.filterMap (·.acceptance? index) = [] := by
  cases h <;> rfl

end Tracker
end Reclaim
