import Mathlib.Data.List.Basic
import Reclaim.Tracking.Temporary

/-!
What the calls on a system do to each of its trackers. Seen through `tracker?`, a call changes the
tracker it is about and leaves the others; the end of an owner sends to every tracker the records
whose watches have fired, newest first, and touches nothing else.
-/

namespace Reclaim.System

theorem index_lt_of_tracker? {s : System} {index : Nat} {t : Tracker}
    (h : s.tracker? index = some t) : index < s.trackers.length :=
  (List.getElem?_eq_some_iff.mp h).1

theorem tracker?_set {s : System} {index : Nat} {t : Tracker} (h : s.tracker? index = some t)
    (t' : Tracker) (j : Nat) :
    (s.setTracker index t').tracker? j = if j = index then some t' else s.tracker? j :=
  tracker?_setTracker (index_lt_of_tracker? h) t' j

@[simp] theorem length_setTracker (s : System) (index : Nat) (t : Tracker) :
    (s.setTracker index t).trackers.length = s.trackers.length := by
  simp [setTracker]

@[simp] theorem nextRecord_setTracker (s : System) (index : Nat) (t : Tracker) :
    (s.setTracker index t).nextRecord = s.nextRecord := rfl

@[simp] theorem tracker?_watch (s : System) (record : Record) (owner : Nat) (channel : Channel)
    (j : Nat) : (s.watch record owner channel).tracker? j = s.tracker? j := rfl

theorem tracker?_addTracker {s : System} {j : Nat} {t t' : Tracker}
    (h : (s.addTracker t).tracker? j = some t') :
    s.tracker? j = some t' ∨ j = s.trackers.length ∧ t' = t := by
  simp only [tracker?, addTracker] at h ⊢
  rcases Nat.lt_trichotomy j s.trackers.length with hj | hj | hj
  · rw [List.getElem?_append_left hj] at h
    exact .inl h
  · subst hj
    simp only [List.getElem?_concat_length, Option.some.injEq] at h
    exact .inr ⟨rfl, h.symm⟩
  · rw [List.getElem?_append_right (by omega)] at h
    rw [List.getElem?_eq_none (by simp; omega)] at h
    simp at h

theorem tracker?_addTracker_of_some {s : System} {j : Nat} {t' : Tracker} (t : Tracker)
    (h : s.tracker? j = some t') : (s.addTracker t).tracker? j = some t' := by
  simp only [tracker?, addTracker] at h ⊢
  rw [List.getElem?_append_left (List.getElem?_eq_some_iff.mp h).1]
  exact h

/-- The records that fired watches bring to a tracker. -/
def arrivals (fired : List Watch) (index : Nat) : List Item :=
  (fired.filter fun w => w.channel = .tracker index).map fun w => .record w.record

@[simp] theorem watches_deliver (s : System) (w : Watch) :
    (s.deliver w).watches = s.watches := by
  unfold deliver
  split
  · rfl
  · split <;> rfl

@[simp] theorem nextRecord_deliver (s : System) (w : Watch) :
    (s.deliver w).nextRecord = s.nextRecord := by
  unfold deliver
  split
  · rfl
  · split <;> rfl

@[simp] theorem length_deliver (s : System) (w : Watch) :
    (s.deliver w).trackers.length = s.trackers.length := by
  unfold deliver
  split
  · rfl
  · split <;> simp

theorem tracker?_deliver (s : System) (w : Watch) (j : Nat) :
    (s.deliver w).tracker? j =
      (s.tracker? j).map fun t => { t with queue := t.queue ++ arrivals [w] j } := by
  unfold deliver arrivals
  split
  · rename_i h
    cases hj : s.tracker? j with
    | none => simpa [tracker?] using hj
    | some t => simpa [tracker?, h] using hj
  · rename_i index h
    split
    · rename_i hi
      cases hj : s.tracker? j with
      | none => rfl
      | some t =>
          have : index ≠ j := by
            rintro rfl
            simp [hi] at hj
          simp [h, this]
    · rename_i t hi
      rw [tracker?_set hi]
      by_cases hj : j = index
      · subst hj
        simp [hi, h, Tracker.send]
      · have : index ≠ j := fun e => hj e.symm
        cases ht : s.tracker? j <;> simp [hj, this, h]

theorem foldl_deliver (fired : List Watch) (s : System) :
    (fired.foldl deliver s).watches = s.watches ∧
      (fired.foldl deliver s).nextRecord = s.nextRecord ∧
      (fired.foldl deliver s).trackers.length = s.trackers.length := by
  induction fired generalizing s with
  | nil => simp
  | cons w fired ih => simp [ih]

theorem tracker?_foldl_deliver (fired : List Watch) (s : System) (j : Nat) :
    (fired.foldl deliver s).tracker? j =
      (s.tracker? j).map fun t => { t with queue := t.queue ++ arrivals fired j } := by
  induction fired generalizing s with
  | nil => cases hj : s.tracker? j <;> simp [arrivals, hj]
  | cons w fired ih =>
      rw [List.foldl_cons, ih, tracker?_deliver, Option.map_map]
      congr 1
      funext t
      simp only [Function.comp_apply, List.append_assoc, arrivals, ← List.map_append,
        ← List.filter_append, List.singleton_append]

/-- The watches that fire when an owner is reclaimed. -/
def firing (s : System) (owner : Nat) : List Watch :=
  s.watches.filter fun w => w.owner = owner

theorem tracker?_reclaim (s : System) (owner j : Nat) :
    (s.reclaim owner).tracker? j =
      (s.tracker? j).map fun t => { t with queue := t.queue ++ arrivals (s.firing owner) j } :=
  tracker?_foldl_deliver ..

theorem watches_reclaim (s : System) (owner : Nat) :
    (s.reclaim owner).watches = s.watches.filter fun w => w.owner ≠ owner :=
  (foldl_deliver ..).1

@[simp] theorem nextRecord_reclaim (s : System) (owner : Nat) :
    (s.reclaim owner).nextRecord = s.nextRecord :=
  (foldl_deliver ..).2.1

@[simp] theorem length_reclaim (s : System) (owner : Nat) :
    (s.reclaim owner).trackers.length = s.trackers.length :=
  (foldl_deliver ..).2.2

/-- A path is tracked only by a tracker that is not asked to finish, for an owner that can be
watched; the new record bears the next number, the stored path and the strategy asked for. -/
theorem trackStored_eq_ok {s s' : System} {index : Nat} {path : String} {owner : Owner}
    {strategy : Option Strategy} {events : List Event}
    (h : s.trackStored index path owner strategy = .ok (s', events)) :
    ∃ t, s.tracker? index = some t ∧ t.exiting = false ∧ owner.unwatchable = none ∧
      let record : Record := ⟨s.nextRecord, path, t.strategyFor strategy⟩
      s' = (s.setTracker index (t.accept record).1).watch record owner.id (.tracker index) ∧
        events = (t.accept record).2 ++ [.tracked record owner.id] := by
  unfold trackStored at h
  split at h
  · simp at h
  · rename_i t ht
    split at h
    · simp at h
    · rename_i he
      split at h
      · simp at h
      · rename_i hw
        simp only [Except.ok.injEq, Prod.mk.injEq] at h
        exact ⟨t, ht, by simpa using he, hw, h.1.symm, h.2.symm⟩

theorem track_eq_ok {s s' : System} {index : Nat} {cwd : Option Path} {path : PathArgument}
    {owner : Owner} {strategy : Option Strategy} {events : List Event}
    (h : s.track index cwd path owner strategy = .ok (s', events)) :
    ∃ stored, path.stored cwd = .ok stored ∧
      s.trackStored index stored owner strategy = .ok (s', events) := by
  unfold track at h
  split at h
  · simp at h
  · rename_i stored hs
    exact ⟨stored, hs, h⟩

theorem track_of_stored {path : PathArgument} {cwd : Option Path} {stored : String}
    (h : path.stored cwd = .ok stored) (s : System) (index : Nat) (owner : Owner)
    (strategy : Option Strategy) :
    s.track index cwd path owner strategy = s.trackStored index stored owner strategy := by
  rw [track, h]

theorem track_of_pathError {path : PathArgument} {cwd : Option Path} {error : PathError}
    (h : path.stored cwd = .error error) (s : System) (index : Nat) (owner : Owner)
    (strategy : Option Strategy) :
    s.track index cwd path owner strategy = .error (.path error) := by
  rw [track, h]

theorem trackCall_of_refused {s : System} {index : Nat} {cwd : Option Path} {path : PathArgument}
    {owner : Owner} {strategy : Option Strategy} {error : TrackError}
    (h : s.track index cwd path owner strategy = .error error) :
    s.trackCall index cwd path owner strategy = (.error (.refused error), s, []) := by
  rw [trackCall, h]

/-- What a call has registered stays registered, whether or not there is a name to report. -/
theorem trackCall_of_tracked {s : System} {index : Nat} {cwd : Option Path} {path : PathArgument}
    {owner : Owner} {strategy : Option Strategy} {tracked : System × List Event}
    (h : s.track index cwd path owner strategy = .ok tracked) :
    s.trackCall index cwd path owner strategy =
      (if (s.labelFor index strategy).isSome then .ok () else .error .nameless, tracked) := by
  rw [trackCall, h]
  cases s.labelFor index strategy <;> rfl

theorem trackCall_eq_ok {s s' : System} {index : Nat} {cwd : Option Path} {path : PathArgument}
    {owner : Owner} {strategy : Option Strategy} {events : List Event}
    (h : s.trackCall index cwd path owner strategy = (.ok (), s', events)) :
    s.track index cwd path owner strategy = .ok (s', events) := by
  cases htrack : s.track index cwd path owner strategy with
  | error error => simp [trackCall_of_refused htrack] at h
  | ok tracked =>
      rw [trackCall_of_tracked htrack, Prod.mk.injEq] at h
      rw [h.2]

theorem trackMade_eq_ok {s s' : System} {index : Nat} {kind : TemporaryKind} {text : String}
    {owner : Owner} {strategy : Option Strategy} {host host' : Host} {events : List Event}
    (h : s.trackMade index kind text owner strategy host = (.ok (), (s', events), host')) :
    s.track index host.currentDirectory? (.text text) owner strategy = .ok (s', events) ∧
      host' = host := by
  unfold trackMade at h
  split at h
  · rename_i tracked hcall
    obtain ⟨rfl, rfl⟩ : tracked = (s', events) ∧ host = host' := by simpa using h
    exact ⟨trackCall_eq_ok hcall, rfl⟩
  · split at h <;> cases h

theorem trackMade_tracked (s : System) (index : Nat) (kind : TemporaryKind) (text : String)
    (owner : Owner) (strategy : Option Strategy) (host : Host) :
    (s.trackMade index kind text owner strategy host).2.1 =
      (s.trackCall index host.currentDirectory? (.text text) owner strategy).2 := by
  unfold trackMade
  split
  · rename_i hcall
    rw [hcall]
  · rename_i hcall
    split <;> rw [hcall]

end Reclaim.System
