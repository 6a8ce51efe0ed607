import Reclaim.Proofs.Course.Shutdown
import Reclaim.Proofs.Tracking.Attempt

/-!
Tracking a path is all or nothing. A call that is refused, for whatever reason and in whatever state
of the tracker, leaves no record, no watch on the owner and no worker behind, so that everything that
happens later happens as if it had not been made. A call that returns has registered one record
under a number of its own, watches the owner for it and has a worker at work; nothing else has
changed. Two things can go wrong later in a call. If no thread can be had for the worker, the tracker
is left with a worker that does not work. If there is no name of a strategy to report, the call fails
with everything done that it has to do.
-/

namespace Reclaim

namespace PathArgument

end PathArgument

namespace System

end System

theorem Tracker.accept_fst (t : Tracker) (record : Record) :
    (t.accept record).1 = { t with
      registry := t.registry ++ [record]
      phase := if t.phase = .unstarted then .testingExit else t.phase } := by
  unfold accept
  split <;> rfl

namespace Course

variable {c : Course} {index : Nat} {t : Tracker}

/-- The answer to a call that tracks a path, and the trackers as the call leaves them; threads may be
there to be had or not. -/
def called (c : Course) (threads : Bool) (index : Nat) (path : PathArgument) (owner : Owner)
    (strategy : Option Strategy) : Except CallError (List Event) × System :=
  Attempt.perform c.system
    (Attempt.track threads index c.host.currentDirectory? path owner strategy)

/-- How a call comes out: it is refused, or it lacks a thread, or it does all that it has to do. -/
inductive Called (c : Course) (threads : Bool) (index : Nat) (t : Tracker) (path : PathArgument)
    (owner : Owner) (strategy : Option Strategy) : Except CallError (List Event) × System → Prop
  | refused {error : TrackError}
      (h : c.system.track index c.host.currentDirectory? path owner strategy = .error error) :
      Called c threads index t path owner strategy (.error (.refused error), c.system)
  | noThread {s : System} {events : List Event}
      (h : c.system.track index c.host.currentDirectory? path owner strategy = .ok (s, events))
      (first : t.phase = .unstarted) (lacking : threads = false) :
      Called c threads index t path owner strategy
        (.error .noThread, { c.system.setTracker index { t with phase := .fallen } with
          nextRecord := c.system.nextRecord + 1 })
  | returned {s : System} {events : List Event}
      (h : c.system.track index c.host.currentDirectory? path owner strategy = .ok (s, events))
      (starts : threads = true ∨ t.phase ≠ .unstarted) (named : (t.labelFor strategy).isSome = true) :
      Called c threads index t path owner strategy (.ok events, s)
  | nameless {s : System} {events : List Event}
      (h : c.system.track index c.host.currentDirectory? path owner strategy = .ok (s, events))
      (starts : threads = true ∨ t.phase ≠ .unstarted) (unnamed : t.labelFor strategy = none) :
      Called c threads index t path owner strategy (.error .nameless, s)

theorem Reachable.fresh_watches (hc : c.Reachable) :
    ∀ w ∈ c.system.watches, w.record.id ≠ c.system.nextRecord := by
  intro w hw
  rw [hc.ledger.watched] at hw
  obtain ⟨a, ha, rfl⟩ := List.mem_map.mp hw
  have hmem : a ∈ c.acceptances := (List.mem_filter.mp (List.mem_reverse.mp ha)).1
  exact Nat.ne_of_lt (hc.ledger.fresh a hmem)

theorem Reachable.called (hc : c.Reachable) (ht : c.system.tracker? index = some t)
    (threads : Bool) (path : PathArgument) (owner : Owner) (strategy : Option Strategy) :
    c.Called threads index t path owner strategy (c.called threads index path owner strategy) := by
  unfold Course.called
  cases h : c.system.track index c.host.currentDirectory? path owner strategy with
  | error error =>
      rw [Attempt.perform_refused ht h]
      exact .refused h
  | ok tracked =>
      obtain ⟨s, events⟩ := tracked
      by_cases starts : threads = true ∨ t.phase ≠ .unstarted
      · rw [Attempt.perform_tracked ht h starts]
        cases hlabel : t.labelFor strategy with
        | none => exact .nameless h starts hlabel
        | some label => exact .returned h starts (by rw [hlabel]; rfl)
      · obtain ⟨hthreads, hp⟩ := not_or.mp starts
        obtain rfl : threads = false := Bool.eq_false_iff.mpr hthreads
        have first : t.phase = .unstarted := not_not.mp hp
        rw [Attempt.perform_noThread ht h first hc.fresh_watches]
        exact .noThread h first rfl

/-- A worker that has not fallen is at work once its tracker accepts a record. -/
theorem Reachable.isRunning_accept (hc : c.Reachable) (ht : c.system.tracker? index = some t)
    (opened : t.exiting = false) (upright : t.phase ≠ .fallen) (record : Record) :
    (t.accept record).1.isRunning = true := by
  have hended : t.phase ≠ .ended := by
    intro hp
    simp [((hc.lawful ht).ended hp).1] at opened
  unfold Tracker.accept
  split
  · rfl
  · rename_i hp
    simp [Tracker.isRunning, hp, hended, upright]

theorem Reachable.accepted (hc : c.Reachable) (ht : c.system.tracker? index = some t)
    {path : PathArgument} {owner : Owner} {strategy : Option Strategy} {s : System}
    {events : List Event}
    (h : c.system.track index c.host.currentDirectory? path owner strategy = .ok (s, events)) :
    ∃ (record : Record) (phase : Phase),
      path.stored c.host.currentDirectory? = .ok record.path ∧
      record.strategy = t.strategyFor strategy ∧
      (∀ a ∈ c.acceptances, a.record.id ≠ record.id) ∧
      (t.phase ≠ .fallen →
        Tracker.isRunning { t with registry := t.registry ++ [record], phase } = true) ∧
      (t.phase ≠ .unstarted → phase = t.phase) ∧
      s = { c.system with
        trackers := c.system.trackers.set index
          { t with registry := t.registry ++ [record], phase }
        watches := ⟨record, owner.id, .tracker index⟩ :: c.system.watches
        nextRecord := c.system.nextRecord + 1 } ∧
      (c.admits index owner = true →
        c.next? (.track index path owner strategy) = some (c.note index s events) ∧
        (c.note index s events).acceptances = c.acceptances ++ [⟨index, record, owner.id⟩]) := by
  obtain ⟨stored, hs, htracked⟩ := System.track_eq_ok h
  obtain ⟨t₁, ht₁, opened, -, rfl, rfl⟩ := System.trackStored_eq_ok htracked
  obtain rfl : t = t₁ := Option.some.inj (ht.symm.trans ht₁)
  obtain ⟨record, hrecord⟩ : ∃ record : Record, record =
    ⟨c.system.nextRecord, stored, t.strategyFor strategy⟩ := ⟨_, rfl⟩
  rw [← hrecord] at h ⊢
  refine ⟨record, if t.phase = .unstarted then .testingExit else t.phase, ?_, ?_, ?_, ?_,
    fun hp => if_neg hp, ?_, fun hadm => ⟨?_, ?_⟩⟩
  · rw [hs, hrecord]
  · rw [hrecord]
  · intro a ha hid
    have hlt := hc.ledger.fresh a ha
    rw [hid, hrecord] at hlt
    exact Nat.lt_irrefl _ hlt
  · intro upright
    rw [← t.accept_fst]
    exact hc.isRunning_accept ht opened upright record
  · rw [t.accept_fst]
    rfl
  · rw [next?_track, if_pos hadm, h]
    rfl
  · rw [acceptances_note, List.filterMap_append, Tracker.acceptances_accept]
    rfl

/-- A strategy without a name: the call fails, and its record stays. -/
example : ((start .bare).perform? [.addTracker "worker" none]).map (fun c =>
    (c.called true 0 (.text "a") ⟨7, none⟩ none).1) = some (.error .nameless) ∧
    ((start .bare).perform? [.addTracker "worker" none]).map (fun c =>
      (c.called true 0 (.text "a") ⟨7, none⟩ none).2.trackers.map Tracker.count) = some [1] :=
  ⟨rfl, rfl⟩

end Course
end Reclaim
