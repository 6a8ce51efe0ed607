import Reclaim.Proofs.Course.Lifecycle

/-!
Every accepted record is handled exactly once. At any time it is in one of three situations: it
waits in the registry for its owner, it is also on its way to the worker because the owner is
gone, or the worker has taken it and has asked its strategy, once, to delete its own path. What has
been asked is what the deletions of records ask; that this is the same as what has been taken holds
because a deletion asks the strategy of its record, on its path, and does so once. Records are told
apart by their numbers, so all this holds of each of several records that share a path, an owner or
both, whichever trackers they belong to.
-/

namespace Reclaim

inductive Situation
  | waiting
  | queued
  | taken
deriving DecidableEq

namespace Course

/-- What strategies have been asked on behalf of one record, by whichever worker. -/
def invokedFor (c : Course) (id : Nat) : List Invocation :=
  (c.invoked.filter fun e => e.1 = id).map (·.2)

def finishedAt (c : Course) (index : Nat) : List Record :=
  (c.eventsAt index).filterMap Event.finished?

/-- What it means for an accepted record to be in a situation. -/
def Finds (c : Course) (a : Acceptance) : Situation → Prop
  | .waiting =>
      a.owner ∉ c.reclaimed ∧ (c.registryAt a.index).count a.record = 1 ∧
        (∀ j, .record a.record ∉ c.queueAt j) ∧ c.invokedFor a.record.id = []
  | .queued =>
      a.owner ∈ c.reclaimed ∧ (c.registryAt a.index).count a.record = 1 ∧
        (c.queueAt a.index).count (.record a.record) = 1 ∧
        (∀ j, j ≠ a.index → .record a.record ∉ c.queueAt j) ∧
        c.invokedFor a.record.id = []
  | .taken =>
      a.record ∈ c.takenAt a.index ∧ (∀ j, a.record ∉ c.registryAt j) ∧
        (∀ j, .record a.record ∉ c.queueAt j) ∧
        c.invokedFor a.record.id =
          [⟨a.record.strategy, a.record.path, some (.ofText a.record.path)⟩]

/-- The strategies that have been asked are those of the records that have been taken. -/
def Asked (c : Course) : Prop :=
  c.invoked = c.taken.map fun e => (e.2.id, e.2.invocation)

theorem Asked.note {c : Course} (h : c.Asked) (index : Nat) (s : System) (events : List Event) :
    (c.note index s events).Asked := by
  have hinvoked : (c.note index s events).invoked =
      c.invoked ++ events.flatMap (Event.invokes c.host) := rfl
  rw [Asked, hinvoked, taken_note, flatMap_invokes, h, List.map_append, List.map_map]
  rfl

theorem Asked.change {c c' : Course} (h : c.Asked) (hch : c.Change c') : c'.Asked := by
  cases hch with
  | accepted => exact h.note _ c.system _
  | roused => exact h.note _ c.system _
  | worked => exact h.note _ c.system _
  | _ => exact h

theorem Reachable.asked {c : Course} (hc : c.Reachable) : c.Asked :=
  hc.induct (fun _ => rfl) fun _ h hch => h.change hch

theorem Asked.invokedFor_eq {c : Course} (h : c.Asked) (id : Nat) :
    c.invokedFor id = (c.taken.filter fun e => e.2.id = id).map (·.2.invocation) := by
  rw [invokedFor, h, List.filter_map, List.map_map]
  rfl

theorem count_record (queue : List Item) (record : Record) :
    queue.count (.record record) = (queue.filterMap Item.record?).count record := by
  induction queue with
  | nil => rfl
  | cons item queue ih =>
      cases item with
      | record r =>
          by_cases hr : r = record <;> simp [Item.record?, ih, hr]
      | wake => simp [List.filterMap_cons, Item.record?, ih]

namespace Ledger

variable {c : Course}

/-- The record of an acceptance occurs once among the acceptances that pass a test, if its own
acceptance passes it, and else not at all. -/
theorem count_record_filter (h : Ledger c) {a : Acceptance} (ha : a ∈ c.acceptances)
    (p : Acceptance → Bool) :
    ((c.acceptances.filter p).map (·.record)).count a.record = if p a then 1 else 0 := by
  have hnodup : ((c.acceptances.filter p).map (·.record)).Nodup := by
    refine List.Nodup.of_map (·.id) ?_
    rw [List.map_map]
    exact h.distinct.sublist (List.filter_sublist.map _)
  rw [hnodup.count]
  refine if_congr ?_ rfl rfl
  constructor
  · intro hm
    obtain ⟨b, hb, hrec⟩ := List.mem_map.mp hm
    obtain ⟨hb, hpb⟩ := List.mem_filter.mp hb
    exact h.eq_of_id_eq hb ha (by rw [hrec]) ▸ hpb
  · intro hp
    exact List.mem_map.mpr ⟨a, List.mem_filter.mpr ⟨ha, hp⟩, rfl⟩

theorem count_registryAt (h : Ledger c) {a : Acceptance} (ha : a ∈ c.acceptances) (j : Nat) :
    (c.registryAt j).count a.record = if c.isRegistered j a then 1 else 0 := by
  unfold registryAt
  split
  · rename_i t ht
    rw [h.registered ht, h.count_record_filter ha]
  · rename_i ht
    have : a.index ≠ j := by
      rintro rfl
      have := h.placed a ha
      simp [System.tracker?] at ht
      omega
    simp [isRegistered, this]

theorem count_queueAt (h : Ledger c) {a : Acceptance} (ha : a ∈ c.acceptances) (j : Nat) :
    (c.queueAt j).count (.record a.record) = if c.isQueued j a then 1 else 0 := by
  unfold queueAt
  split
  · rename_i t ht
    rw [count_record, (h.queued ht).count_eq, h.count_record_filter ha]
  · rename_i ht
    have : a.index ≠ j := by
      rintro rfl
      have := h.placed a ha
      simp [System.tracker?] at ht
      omega
    simp [isQueued, isRegistered, this]

theorem invokedFor_of_not_taken (asked : c.Asked) {id : Nat} (hid : id ∉ c.takenIds) :
    c.invokedFor id = [] := by
  rw [asked.invokedFor_eq, List.map_eq_nil_iff, List.filter_eq_nil_iff]
  intro e he heq
  simp only [decide_eq_true_eq] at heq
  exact hid (List.mem_map.mpr ⟨e, he, heq⟩)

theorem mem_taken (h : Ledger c) {a : Acceptance} (ha : a ∈ c.acceptances)
    (hid : a.record.id ∈ c.takenIds) : (a.index, a.record) ∈ c.taken := by
  obtain ⟨e, he, heq⟩ := List.mem_map.mp hid
  obtain ⟨b, hb, hindex, hrec, -⟩ := h.accounted e he
  obtain rfl : a = b := h.eq_of_id_eq ha hb (by rw [hrec, heq])
  rw [hindex, hrec]
  exact he

theorem invokedFor_of_taken (h : Ledger c) (asked : c.Asked) {a : Acceptance}
    (ha : a ∈ c.acceptances) (hid : a.record.id ∈ c.takenIds) :
    c.invokedFor a.record.id = [a.record.invocation] := by
  have hmem := h.mem_taken ha hid
  have hnodup : c.taken.Nodup := List.Nodup.of_map _ h.takenOnce
  have hsingle : (c.taken.filter fun e => e.2.id = a.record.id) = [(a.index, a.record)] := by
    -- no number is taken twice, so the entry of this number is the only one
    have hall : ∀ e ∈ c.taken, decide (e.2.id = a.record.id) = (e == (a.index, a.record)) := by
      intro e he
      by_cases heq : e = (a.index, a.record)
      · simp [heq]
      · have hne : e.2.id ≠ a.record.id := fun hid' =>
          heq (List.inj_on_of_nodup_map h.takenOnce he hmem hid')
        simp [heq, hne]
    rw [List.filter_congr hall, List.filter_beq, hnodup.count, if_pos hmem]
    rfl
  rw [asked.invokedFor_eq, hsingle]
  rfl

end Ledger

theorem not_mem_of_count {α : Type} [DecidableEq α] {a : α} {l : List α} {b : Bool}
    (h : l.count a = if b then 1 else 0) (hb : b = false) : a ∉ l := by
  rw [hb] at h
  exact List.count_eq_zero.mp h

/-- What of the three situations holds, read off whether the owner is gone and whether the record
has been taken. -/
theorem Reachable.finds {c : Course} (hc : c.Reachable) {a : Acceptance}
    (ha : a ∈ c.acceptances) :
    c.Finds a (if a.record.id ∈ c.takenIds then .taken
      else if a.owner ∈ c.reclaimed then .queued else .waiting) := by
  have h := hc.ledger
  have hregistry := h.count_registryAt ha
  have hqueue := h.count_queueAt ha
  by_cases ht : a.record.id ∈ c.takenIds
  · rw [if_pos ht]
    refine ⟨mem_takenAt.mpr (h.mem_taken ha ht), fun j => ?_, fun j => ?_,
      h.invokedFor_of_taken hc.asked ha ht⟩
    · exact not_mem_of_count (hregistry j) (by simp [isRegistered, ht])
    · exact not_mem_of_count (hqueue j) (by simp [isQueued, isRegistered, ht])
  · rw [if_neg ht]
    have hown : c.isRegistered a.index a = true := by simp [isRegistered, ht]
    have hcalls := Ledger.invokedFor_of_not_taken hc.asked ht
    by_cases hr : a.owner ∈ c.reclaimed
    · rw [if_pos hr]
      refine ⟨hr, by simpa [hown] using hregistry a.index, ?_, fun j hj => ?_, hcalls⟩
      · simpa [isQueued, hown, hr] using hqueue a.index
      · exact not_mem_of_count (hqueue j) (by simp [isQueued, isRegistered, Ne.symm hj])
    · rw [if_neg hr]
      refine ⟨hr, by simpa [hown] using hregistry a.index, fun j => ?_, hcalls⟩
      exact not_mem_of_count (hqueue j) (by simp [isQueued, hr])

theorem finds_unique {c : Course} {a : Acceptance} {s s' : Situation} (h : c.Finds a s)
    (h' : c.Finds a s') : s = s' := by
  cases s <;> cases s' <;> simp_all [Finds]

/-- Every accepted record has a number of its own and is in exactly one of the three situations.
Nothing has been asked of strategies but on behalf of records that have been taken; and the records
that a worker has taken are those whose strategies have ended, in order, and the one in whose
strategy it is. -/
theorem exactly_one_situation {c : Course} (hc : c.Reachable) :
    (c.acceptances.map (·.record.id)).Nodup ∧
      (∀ a ∈ c.acceptances, ∃! situation, c.Finds a situation) ∧
      c.invoked = c.taken.map (fun e => (e.2.id, e.2.invocation)) ∧
      ∀ index t, c.system.tracker? index = some t →
        c.takenAt index = c.finishedAt index ++ t.phase.inHand?.toList := by
  refine ⟨hc.ledger.distinct, fun a ha => ?_, hc.asked, fun index t ht => (hc.lawful ht).taken⟩
  exact ⟨_, hc.finds ha, fun s hs => finds_unique hs (hc.finds ha)⟩

def sharedOwner : List Action :=
  [.addTracker "first" (some .normal), .addTracker "second" (some .force),
    .track 0 (.text "a") ⟨7, none⟩ none, .track 0 (.text "a") ⟨7, none⟩ none,
    .track 1 (.text "a") ⟨7, none⟩ none, .track 0 (.text "b") ⟨8, none⟩ none,
    .reclaim 7, .advance 0, .advance 0]

theorem exactly_one_situation_sharedOwner :
    ∃ c, (start .bare).perform? sharedOwner = some c ∧ c.acceptances.length = 4 ∧
      (c.acceptances.map (·.record.id)).Nodup ∧
      (∀ a ∈ c.acceptances, ∃! situation, c.Finds a situation) ∧
      c.invoked = c.taken.map (fun e => (e.2.id, e.2.invocation)) ∧
      ∀ index t, c.system.tracker? index = some t →
        c.takenAt index = c.finishedAt index ++ t.phase.inHand?.toList := by
  have h : (start .bare).perform? sharedOwner = some _ := rfl
  exact ⟨_, h, rfl, exactly_one_situation ((Reachable.start .bare).perform h)⟩

end Course
end Reclaim
