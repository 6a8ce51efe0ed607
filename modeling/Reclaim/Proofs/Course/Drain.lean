import Reclaim.Proofs.Course.Shutdown

/-!
Draining. A worker that waits on an empty queue after a request to finish has something to wait
for: a record whose owner lives. When no such record is left, the worker comes to its end, unless an
answer of which the truth cannot be told brings it down before. The measure is the length of the
queue up to its last record: a wake-up call may come before, between or after the records, but only
those items have still to be received before the registry is empty.
-/

namespace Reclaim

/-- The length of a queue up to its last record. -/
def backlog : List Item → Nat
  | [] => 0
  | .record _ :: queue => backlog queue + 1
  | .wake :: queue => if backlog queue = 0 then 0 else backlog queue + 1

theorem backlog_eq_zero (queue : List Item) :
    backlog queue = 0 ↔ queue.filterMap Item.record? = [] := by
  induction queue with
  | nil => exact iff_of_true rfl rfl
  | cons item queue ih =>
      cases item with
      | record r => simp [backlog, Item.record?]
      | wake =>
          rw [List.filterMap_cons_none (by rfl : Item.record? .wake = none), ← ih]
          simp only [backlog]
          split <;> omega

theorem backlog_append_wake (queue : List Item) :
    backlog (queue ++ [.wake]) = backlog queue := by
  induction queue with
  | nil => rfl
  | cons item queue ih => cases item <;> simp [backlog, ih]

namespace Tracker

def testsLeft (t : Tracker) : Nat :=
  match t.phase with
  | .testingExit | .deleting _ => backlog t.queue + 1
  | .testingCount => backlog t.queue
  | .receiving => max (backlog t.queue) 1
  | .unstarted | .ended | .fallen => 0

/-- The steps of the worker that are still to come: up to four in each round. -/
def stepsLeft (t : Tracker) : Nat :=
  match t.phase with
  | .testingExit => 4 * backlog t.queue + 2
  | .deleting _ => 4 * backlog t.queue + 3
  | .testingCount => 4 * backlog t.queue + 1
  | .receiving => 4 * max (backlog t.queue) 1
  | .unstarted | .ended | .fallen => 0

/-- A tracker that has been asked to finish and whose records are all on their way. -/
structure Overdue (t : Tracker) : Prop where
  exiting : t.exiting = true
  underway : (t.queue.filterMap Item.record?).length = t.registry.length

theorem Overdue.backlog_eq_zero {t : Tracker} (h : t.Overdue) :
    backlog t.queue = 0 ↔ t.registry = [] := by
  rw [Reclaim.backlog_eq_zero, ← List.length_eq_zero_iff, h.underway, List.length_eq_zero_iff]

theorem Works.left {t t' : Tracker} {events : List Event} (works : t.Works t' events)
    (h : t.Overdue) :
    (if t.phase = .testingExit then 1 else 0) + t'.testsLeft ≤ t.testsLeft ∧
      1 + t'.stepsLeft ≤ t.stepsLeft := by
  have hzero := h.backlog_eq_zero
  cases works with
  | testExit hp =>
      simp only [testsLeft, stepsLeft, hp, h.exiting, if_true]
      omega
  | stop hp empty =>
      simp only [testsLeft, stepsLeft, hp, reduceCtorEq, if_false]
      omega
  | goOn hp more =>
      have : backlog t.queue ≠ 0 := fun h0 => more (hzero.mp h0)
      simp only [testsLeft, stepsLeft, hp, reduceCtorEq, if_false]
      omega
  | awake hp next =>
      -- a call before the last record has been counted; one after it ends the last round
      simp only [testsLeft, stepsLeft, hp, reduceCtorEq, if_false, next, backlog]
      split <;> omega
  | take hp next =>
      simp only [testsLeft, stepsLeft, hp, reduceCtorEq, if_false, next, backlog]
      omega
  | finish outcome hp =>
      cases outcome <;> simp only [testsLeft, stepsLeft, conclude, hp, reduceCtorEq, if_false,
        if_true] <;> omega

/-- Nothing that can happen to an overdue tracker prolongs the work that is left. -/
theorem Move.left {under under' : Bool} {t t' : Tracker} {events : List Event}
    (move : Move under t under' t' events) (h : t.Overdue) (h' : t'.Overdue) :
    t'.testsLeft ≤ t.testsLeft ∧ t'.stepsLeft ≤ t.stepsLeft := by
  cases move with
  | still => exact ⟨Nat.le_refl _, Nat.le_refl _⟩
  | accept record owner opened => simp [h.exiting] at opened
  | @deliver _ _ items records =>
      -- all records of the tracker were on their way before, so none can arrive
      have hlength := h'.underway
      simp only [List.filterMap_append, List.length_append, h.underway, Nat.add_eq_left,
        List.length_eq_zero_iff] at hlength
      have : items = [] := by
        rw [List.eq_nil_iff_forall_not_mem]
        intro item hitem
        cases item with
        | wake => exact records hitem
        | record r =>
            have : r ∈ items.filterMap Item.record? := List.mem_filterMap.mpr ⟨_, hitem, rfl⟩
            simp [hlength] at this
      subst this
      simp [testsLeft, stepsLeft]
  | close opened => simp [h.exiting] at opened
  | rouse =>
      have hbacklog : backlog t.rouse.queue = backlog t.queue := by
        unfold Tracker.rouse
        split
        · exact backlog_append_wake t.queue
        · rfl
      rw [testsLeft, stepsLeft, t.phase_rouse, hbacklog]
      exact ⟨Nat.le_refl _, Nat.le_refl _⟩
  | work _ works =>
      have := works.left h
      omega

/-- Requests to finish are not taken back, and nothing is accepted after them. -/
theorem Move.exiting {under under' : Bool} {t t' : Tracker} {events : List Event}
    (move : Move under t under' t' events) (he : t.exiting = true) :
    t'.exiting = true ∧ events.filterMap Event.accepted? = [] := by
  cases move with
  | still => exact ⟨he, rfl⟩
  | accept record owner opened => simp [he] at opened
  | deliver => exact ⟨he, rfl⟩
  | close => exact ⟨rfl, rfl⟩
  | rouse =>
      exact ⟨t.exiting_rouse.trans he, rfl⟩
  | work _ works => cases works <;> exact ⟨he, rfl⟩

theorem Works.undecided {t t' : Tracker} {events : List Event} (works : t.Works t' events)
    (hp : t'.phase = .fallen) :
    ∃ record, t.phase = .deleting record ∧ events = [.finished record .undecided] := by
  cases works with
  | testExit => cases he : t.exiting <;> simp [he] at hp
  | finish outcome h =>
      cases outcome with
      | undecided => exact ⟨_, h, rfl⟩
      | _ => cases hp
  | _ => cases hp

/-- Whether the worker has caught up: it is in no strategy and can do nothing by itself. -/
def isCaughtUp (t : Tracker) : Bool :=
  t.advance.isNone && t.phase.inHand?.isNone

theorem isCaughtUp_cases {t : Tracker} (h : t.isCaughtUp = true) :
    t.phase = .unstarted ∨ t.phase = .ended ∨ t.phase = .fallen ∨
      t.phase = .receiving ∧ t.queue = [] := by
  cases hp : t.phase with
  | receiving =>
      cases hq : t.queue with
      | nil => exact .inr (.inr (.inr ⟨rfl, rfl⟩))
      | cons item queue => cases item <;> simp [isCaughtUp, advance, hp, hq] at h
  | testingCount =>
      by_cases hr : t.registry = [] <;> simp [isCaughtUp, advance, hp, hr] at h
  | unstarted => exact .inl rfl
  | ended => exact .inr (.inl rfl)
  | fallen => exact .inr (.inr (.inl rfl))
  | _ => simp [isCaughtUp, advance, hp, Phase.inHand?] at h

end Tracker

def Action.isWork (index : Nat) : Action → Bool
  | advance i | finish i _ => i = index
  | _ => false

namespace Course

variable {c c' : Course} {index : Nat} {t : Tracker}

/-- The owners of all records that a tracker holds are gone. -/
def AllDue (c : Course) (index : Nat) : Prop :=
  ∀ a ∈ c.acceptances, a.index = index → a.record.id ∉ c.takenIds → a.owner ∈ c.reclaimed

theorem AllDue.change (due : c.AllDue index) (ht : c.system.tracker? index = some t)
    (exiting : t.exiting = true) (hch : c.Change c') : c'.AllDue index := by
  have hworked : ∀ i s (events : List Event),
      events.filterMap (fun e => e.acceptance? i) = [] → (c.note i s events).AllDue index := by
    intro i s events hnone a ha hindex hid
    rw [acceptances_note, hnone, List.append_nil] at ha
    refine due a ha hindex fun htaken => hid ?_
    simp only [takenIds, taken_note, List.map_append, List.mem_append]
    exact .inl htaken
  cases hch with
  | quiet host => exact due
  | added threadName strategy => exact due
  | @accepted i owner t₁ record host found opened free fresh alive =>
      have hnote : (c.note i c.system
          ((t₁.accept record).2 ++ [.tracked record owner])).AllDue index := by
        intro a ha hindex hid
        rw [acceptances_note, List.filterMap_append, Tracker.acceptances_accept,
          List.mem_append] at ha
        simp only [takenIds, taken_note, List.filterMap_append, Tracker.taken_accept] at hid
        rcases ha with ha | ha
        · exact due a ha hindex (by simpa [takenIds, Event.taken?] using hid)
        · obtain rfl : a = ⟨i, record, owner⟩ := by simpa [Event.acceptance?] using ha
          obtain rfl : i = index := hindex
          obtain rfl : t = t₁ := Option.some.inj (ht.symm.trans found)
          simp [exiting] at opened
      exact hnote
  | reclaimed owner =>
      exact fun a ha hindex hid => List.mem_cons_of_mem _ (due a ha hindex hid)
  | closed found opened free => exact due
  | @roused i t₁ found under => exact hworked i (c.system.setTracker i t₁.rouse) _ rfl
  | @worked i t₁ t₂ events host notes found works =>
      exact hworked i (c.system.setTracker i t₂) events (works.acceptances i)

/-- A worker that waits on an empty queue when a request to finish has returned waits for a
record whose owner lives. -/
theorem Reachable.waiting (hc : c.Reachable) (ht : c.system.tracker? index = some t)
    (exiting : t.exiting = true) (returned : index ∉ c.closing) (hp : t.phase = .receiving)
    (hq : t.queue = []) :
    t.registry ≠ [] ∧ ∀ record ∈ t.registry, ∃ owner,
      ⟨index, record, owner⟩ ∈ c.acceptances ∧ owner ∉ c.reclaimed := by
  constructor
  · intro empty
    rcases (hc.lawful ht).wakeful hp exiting empty with under | wake
    · exact returned (by simpa [isClosing] using under)
    · simp [hq] at wake
  · intro record hr
    obtain ⟨a, ha, hindex, hrec, hid⟩ := (hc.ledger.mem_registry ht).mp hr
    obtain rfl : a.index = index := hindex
    obtain rfl : a.record = record := hrec
    refine ⟨a.owner, ha, fun gone => ?_⟩
    -- the record would be on its way
    have hqueued := (hc.ledger.mem_queue ht).mpr ⟨a, ha, rfl, rfl, hid, gone⟩
    simp [hq] at hqueued

/-- How strategies end that have been asked on behalf of records. -/
structure Conduct where
  run : Host → Record → QuietRun
  invoked : ∀ host record, (run host record).invoked = [record.invocation]

def workNext? (c : Course) (conduct : Conduct) (index : Nat) : Option Course :=
  match c.work.inHand? index with
  | some record => c.next? (.finish index (conduct.run c.host record))
  | none => c.next? (.advance index)

theorem exists_of_workNext? {conduct : Conduct} (h : c.workNext? conduct index = some c') :
    ∃ action, action.isWork index = true ∧ c.next? action = some c' := by
  unfold workNext? at h
  split at h
  · exact ⟨_, by simp [Action.isWork], h⟩
  · exact ⟨_, by simp [Action.isWork], h⟩

end Course
end Reclaim
