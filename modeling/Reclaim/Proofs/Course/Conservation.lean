import Reclaim.Proofs.Course.Blind
import Reclaim.Proofs.Course.Order

/-!
Conservation of records. An accepted record is in the registry, or in the hands of the worker, or
its strategy has come to an end; and a strategy that has come to an end has either deleted its
path or left it in the list of failures, unless it has brought the worker down. All of these are
counted together at any time, although they change at different moments: the registry shrinks before
the strategy is called, and the list of failures grows when it ends.
-/

namespace Reclaim

/-- The record whose strategy has ended, and how. -/
def Event.ending? : Event → Option (Record × Outcome)
  | finished record outcome => some (record, outcome)
  | _ => none

theorem Event.finished?_eq (e : Event) : e.finished? = e.ending?.map (·.1) := by
  cases e <;> rfl

/-- The paths of the records whose strategies have failed. -/
def failedPaths (endings : List (Record × Outcome)) : List String :=
  (endings.filter fun e => e.2.isFailure).map (·.1.path)

namespace Tracker

/-- What the list of failures has to do with the events at a tracker. -/
def Exact (t : Tracker) (events : List Event) : Prop :=
  t.failures = failedPaths (events.filterMap Event.ending?)

theorem failures_accept (t : Tracker) (record : Record) :
    (t.accept record).1.failures = t.failures ∧
      (t.accept record).2.filterMap Event.ending? = [] := by
  unfold accept
  split <;> exact ⟨rfl, rfl⟩

theorem Move.failures {under under' : Bool} {t t' : Tracker} {more : List Event}
    (move : Move under t under' t' more) :
    t'.failures = t.failures ++ failedPaths (more.filterMap Event.ending?) := by
  cases move with
  | still => exact (List.append_nil _).symm
  | accept record owner opened =>
      obtain ⟨hfailures, hnone⟩ := t.failures_accept record
      rw [List.filterMap_append, hnone, hfailures]
      exact (List.append_nil _).symm
  | deliver => exact (List.append_nil _).symm
  | close => exact (List.append_nil _).symm
  | rouse =>
      unfold Tracker.rouse
      split <;> exact (List.append_nil _).symm
  | work _ works =>
      cases works with
      | finish outcome hp =>
          cases ho : outcome.isFailure <;> simp [Event.ending?, failedPaths, conclude, ho]
      | _ => exact (List.append_nil _).symm

theorem Exact.move {under under' : Bool} {t t' : Tracker} {events more : List Event}
    (h : t.Exact events) (move : Move under t under' t' more) : t'.Exact (events ++ more) := by
  rw [Exact, move.failures, h]
  simp [failedPaths]

end Tracker

namespace Course

variable {c c' : Course} {index : Nat} {t : Tracker}

/-- The records whose strategies have ended at a tracker, in order, each with how it ended. -/
def endingsAt (c : Course) (index : Nat) : List (Record × Outcome) :=
  (c.eventsAt index).filterMap Event.ending?

theorem finishedAt_eq (c : Course) (index : Nat) :
    c.finishedAt index = (c.endingsAt index).map (·.1) := by
  simp only [finishedAt, endingsAt, List.map_filterMap]
  exact congrArg (List.filterMap · _) (funext Event.finished?_eq)

theorem mem_endingsAt {record : Record} {outcome : Outcome} :
    (record, outcome) ∈ c.endingsAt index ↔ .finished record outcome ∈ c.eventsAt index := by
  rw [endingsAt, List.mem_filterMap]
  constructor
  · rintro ⟨e, he, hending⟩
    cases e with
    | finished r o =>
        obtain ⟨rfl, rfl⟩ : r = record ∧ o = outcome := by simpa [Event.ending?] using hending
        exact he
    | _ => cases hending
  · exact fun he => ⟨_, he, rfl⟩

theorem Reachable.exact (hc : c.Reachable) (ht : c.system.tracker? index = some t) :
    t.failures = failedPaths (c.endingsAt index) :=
  hc.atEach (P := fun _ t events => t.Exact events) (fun _ _ => rfl) (fun h move => h.move move) ht

theorem Reachable.takenAt_eq (hc : c.Reachable) (ht : c.system.tracker? index = some t) :
    c.takenAt index = c.finishedAt index ++ t.phase.inHand?.toList :=
  (hc.lawful ht).taken

end Course
end Reclaim
