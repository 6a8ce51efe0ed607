import Mathlib.Data.List.Nodup
import Reclaim.Proofs.Course.History

/-!
The ledger of a course. Everything that trackers and watches hold is determined by three lists of
the past: the acceptances, the takings and the reclaimed owners. The watches are those of the
acceptances whose owner lives; a registry holds the accepted records that have not been taken, in
order; and a queue brings, in some order, those among them whose owner is gone. Each change of a
course keeps this so.
-/

namespace Reclaim

theorem filter_perm_append {α : Type} (p q r : α → Bool) (l : List α)
    (hp : ∀ a ∈ l, p a = (q a || r a)) (hqr : ∀ a ∈ l, q a = true → r a = false) :
    (l.filter p).Perm (l.filter q ++ l.filter r) := by
  induction l with
  | nil => simp
  | cons a l ih =>
      have ih := ih (fun b hb => hp b (List.mem_cons_of_mem _ hb))
        (fun b hb => hqr b (List.mem_cons_of_mem _ hb))
      have hpa := hp a List.mem_cons_self
      cases hq : q a with
      | true =>
          have hr := hqr a List.mem_cons_self hq
          simpa [hpa, hq, hr] using ih
      | false =>
          cases hr : r a with
          | true =>
              simp only [List.filter_cons, hpa, hq, hr, Bool.or_true, if_true,
                Bool.false_eq_true, if_false]
              exact (ih.cons a).trans List.perm_middle.symm
          | false => simpa [hpa, hq, hr] using ih

namespace Course

def isRegistered (c : Course) (index : Nat) (a : Acceptance) : Bool :=
  a.index = index && a.record.id ∉ c.takenIds

def isQueued (c : Course) (index : Nat) (a : Acceptance) : Bool :=
  c.isRegistered index a && a.owner ∈ c.reclaimed

structure Ledger (c : Course) : Prop where
  fresh : ∀ a ∈ c.acceptances, a.record.id < c.system.nextRecord
  distinct : (c.acceptances.map (·.record.id)).Nodup
  placed : ∀ a ∈ c.acceptances, a.index < c.system.trackers.length
  watched : c.system.watches =
    (c.acceptances.filter fun a => a.owner ∉ c.reclaimed).reverse.map Acceptance.watch
  accounted : ∀ e ∈ c.taken, ∃ a ∈ c.acceptances,
    a.index = e.1 ∧ a.record = e.2 ∧ a.owner ∈ c.reclaimed
  takenOnce : c.takenIds.Nodup
  registered : ∀ {index t}, c.system.tracker? index = some t →
    t.registry = (c.acceptances.filter (c.isRegistered index)).map (·.record)
  queued : ∀ {index t}, c.system.tracker? index = some t →
    (t.queue.filterMap Item.record?).Perm
      ((c.acceptances.filter (c.isQueued index)).map (·.record))

theorem takenIds_congr {c c' : Course} (h : c'.taken = c.taken) : c'.takenIds = c.takenIds := by
  rw [takenIds, takenIds, h]

theorem isRegistered_congr {c c' : Course} (h : c'.taken = c.taken) :
    c'.isRegistered = c.isRegistered := by
  funext j a
  simp only [isRegistered, takenIds_congr h]

theorem isQueued_congr {c c' : Course} (h : c'.taken = c.taken)
    (hrec : c'.reclaimed = c.reclaimed) : c'.isQueued = c.isQueued := by
  funext j a
  simp only [isQueued, isRegistered_congr h, hrec]

namespace Ledger

theorem start (host : Host) : Ledger (Course.start host) where
  fresh := by simp
  distinct := by simp
  placed := by simp
  watched := rfl
  accounted := by simp
  takenOnce := by simp [takenIds]
  registered h := by simp [Course.start, System.empty, System.tracker?] at h
  queued h := by simp [Course.start, System.empty, System.tracker?] at h

/-- Acceptances are told apart by the numbers of their records. -/
theorem eq_of_id_eq {c : Course} (h : Ledger c) {a b : Acceptance} (ha : a ∈ c.acceptances)
    (hb : b ∈ c.acceptances) (hid : a.record.id = b.record.id) : a = b :=
  List.inj_on_of_nodup_map h.distinct ha hb hid

/-- The owner of a record that has been taken is gone. -/
theorem reclaimed_of_taken {c : Course} (h : Ledger c) {a : Acceptance}
    (ha : a ∈ c.acceptances) (ht : a.record.id ∈ c.takenIds) : a.owner ∈ c.reclaimed := by
  obtain ⟨e, he, hid⟩ := List.mem_map.mp ht
  obtain ⟨b, hb, -, hrec, howner⟩ := h.accounted e he
  rw [h.eq_of_id_eq ha hb (by rw [hrec, hid])]
  exact howner

theorem takenIds_lt {c : Course} (h : Ledger c) {id : Nat} (hid : id ∈ c.takenIds) :
    id < c.system.nextRecord := by
  obtain ⟨e, he, rfl⟩ := List.mem_map.mp hid
  obtain ⟨a, ha, -, hrec, -⟩ := h.accounted e he
  rw [← hrec]
  exact h.fresh a ha

/-- A registry holds the records that its tracker has accepted and no worker has taken. -/
theorem mem_registry {c : Course} (h : Ledger c) {index : Nat} {t : Tracker} {r : Record}
    (ht : c.system.tracker? index = some t) :
    r ∈ t.registry ↔
      ∃ a ∈ c.acceptances, a.index = index ∧ a.record = r ∧ r.id ∉ c.takenIds := by
  rw [h.registered ht, List.mem_map]
  simp only [List.mem_filter, isRegistered, Bool.and_eq_true, decide_eq_true_eq]
  constructor
  · rintro ⟨a, ⟨ha, hindex, hid⟩, rfl⟩
    exact ⟨a, ha, hindex, rfl, hid⟩
  · rintro ⟨a, ha, hindex, rfl, hid⟩
    exact ⟨a, ⟨ha, hindex, hid⟩, rfl⟩

theorem mem_queue {c : Course} (h : Ledger c) {index : Nat} {t : Tracker} {r : Record}
    (ht : c.system.tracker? index = some t) :
    .record r ∈ t.queue ↔ ∃ a ∈ c.acceptances,
      a.index = index ∧ a.record = r ∧ r.id ∉ c.takenIds ∧ a.owner ∈ c.reclaimed := by
  have hitem : .record r ∈ t.queue ↔ r ∈ t.queue.filterMap Item.record? := by
    rw [List.mem_filterMap]
    constructor
    · exact fun hr => ⟨_, hr, rfl⟩
    · rintro ⟨item, hitem, hr⟩
      cases item with
      | record r' =>
          obtain rfl : r' = r := Option.some.inj hr
          exact hitem
      | wake => cases hr
  rw [hitem, (h.queued ht).mem_iff, List.mem_map]
  simp only [List.mem_filter, isQueued, isRegistered, Bool.and_eq_true, decide_eq_true_eq]
  constructor
  · rintro ⟨a, ⟨ha, ⟨hindex, hid⟩, howner⟩, rfl⟩
    exact ⟨a, ha, hindex, rfl, hid, howner⟩
  · rintro ⟨a, ha, hindex, rfl, hid, howner⟩
    exact ⟨a, ⟨ha, ⟨hindex, hid⟩, howner⟩, rfl⟩

/-- A ledger speaks of registries and of the records in queues only: a change that keeps these
keeps the ledger. Trackers may be added as long as they hold nothing. -/
theorem frame {c c' : Course} (h : Ledger c) (hacc : c'.acceptances = c.acceptances)
    (htaken : c'.taken = c.taken) (hrec : c'.reclaimed = c.reclaimed)
    (hwatches : c'.system.watches = c.system.watches)
    (hnext : c'.system.nextRecord = c.system.nextRecord)
    (hlen : c.system.trackers.length ≤ c'.system.trackers.length)
    (htr : ∀ {j t'}, c'.system.tracker? j = some t' →
      (∃ t, c.system.tracker? j = some t ∧ t'.registry = t.registry ∧
        t'.queue.filterMap Item.record? = t.queue.filterMap Item.record?) ∨
      c.system.trackers.length ≤ j ∧ t'.registry = [] ∧ t'.queue = []) : Ledger c' := by
  have hnone : ∀ j, c.system.trackers.length ≤ j → ∀ a ∈ c.acceptances,
      c.isRegistered j a = false := by
    intro j hj a ha
    have := h.placed a ha
    simp only [isRegistered, Bool.and_eq_false_iff, decide_eq_false_iff_not]
    left
    omega
  constructor
  case fresh =>
    rw [hacc, hnext]
    exact h.fresh
  case distinct =>
    rw [hacc]
    exact h.distinct
  case placed =>
    intro a ha
    rw [hacc] at ha
    exact Nat.lt_of_lt_of_le (h.placed a ha) hlen
  case watched =>
    rw [hwatches, hacc, hrec]
    exact h.watched
  case accounted =>
    rw [htaken, hacc, hrec]
    exact h.accounted
  case takenOnce =>
    rw [takenIds_congr htaken]
    exact h.takenOnce
  case registered =>
    intro j t' ht'
    rw [hacc, isRegistered_congr htaken]
    rcases htr ht' with ⟨t, ht, hr, -⟩ | ⟨hj, hr, -⟩
    · rw [hr]
      exact h.registered ht
    · rw [hr, List.filter_eq_nil_iff.mpr]
      · rfl
      · intro a ha
        simp [hnone j hj a ha]
  case queued =>
    intro j t' ht'
    rw [hacc, isQueued_congr htaken hrec]
    rcases htr ht' with ⟨t, ht, -, hq⟩ | ⟨hj, -, hq⟩
    · rw [hq]
      exact h.queued ht
    · rw [hq, List.filter_eq_nil_iff.mpr]
      · simp
      · intro a ha
        simp [isQueued, hnone j hj a ha]

theorem accept {c c' : Course} (h : Ledger c) {index owner : Nat} {t : Tracker}
    {record : Record} (found : c.system.tracker? index = some t)
    (fresh : record.id = c.system.nextRecord) (alive : owner ∉ c.reclaimed)
    (hsys : c'.system =
      (c.system.setTracker index (t.accept record).1).watch record owner (.tracker index))
    (hacc : c'.acceptances = c.acceptances ++ [⟨index, record, owner⟩])
    (htaken : c'.taken = c.taken) (hrec : c'.reclaimed = c.reclaimed) : Ledger c' := by
  have hnew : record.id ∉ c.takenIds := by
    intro hid
    have := h.takenIds_lt hid
    omega
  have htr : ∀ {j t'}, c'.system.tracker? j = some t' → ∃ t₁,
      c.system.tracker? j = some t₁ ∧ t'.queue = t₁.queue ∧
        t'.registry = t₁.registry ++ if index = j then [record] else [] := by
    intro j t' ht'
    rw [hsys, System.tracker?_watch, System.tracker?_set found] at ht'
    by_cases hj : j = index
    · subst hj
      rw [if_pos rfl, Option.some.injEq] at ht'
      subst ht'
      exact ⟨t, found, t.queue_accept record, by simp⟩
    · rw [if_neg hj] at ht'
      exact ⟨t', ht', rfl, by simp [Ne.symm hj]⟩
  constructor
  case fresh =>
    intro a ha
    rw [hsys]
    show a.record.id < c.system.nextRecord + 1
    rw [hacc, List.mem_append, List.mem_singleton] at ha
    rcases ha with ha | rfl
    · exact Nat.lt_succ_of_lt (h.fresh a ha)
    · exact fresh ▸ Nat.lt_succ_self _
  case distinct =>
    rw [hacc, List.map_append, List.nodup_append]
    refine ⟨h.distinct, List.nodup_singleton _, ?_⟩
    intro id hid id' hid'
    obtain ⟨a, ha, rfl⟩ := List.mem_map.mp hid
    have hlt := h.fresh a ha
    have : id' = record.id := by simpa using hid'
    omega
  case placed =>
    intro a ha
    rw [hsys]
    show a.index < (c.system.setTracker index _).trackers.length
    rw [System.length_setTracker]
    rw [hacc, List.mem_append, List.mem_singleton] at ha
    rcases ha with ha | rfl
    · exact h.placed a ha
    · exact System.index_lt_of_tracker? found
  case watched =>
    rw [hsys, hrec, hacc, List.filter_append]
    show (⟨record, owner, .tracker index⟩ :: c.system.watches : List Watch) = _
    rw [h.watched]
    simp [alive, Acceptance.watch]
  case accounted =>
    rw [htaken, hacc, hrec]
    intro e he
    obtain ⟨a, ha, hrest⟩ := h.accounted e he
    exact ⟨a, List.mem_append_left _ ha, hrest⟩
  case takenOnce =>
    rw [takenIds_congr htaken]
    exact h.takenOnce
  case registered =>
    intro j t' ht'
    obtain ⟨t₁, ht₁, -, hregistry⟩ := htr ht'
    rw [hregistry, h.registered ht₁, hacc, isRegistered_congr htaken, List.filter_append,
      List.map_append]
    by_cases hj : index = j <;> simp [isRegistered, hnew, hj]
  case queued =>
    intro j t' ht'
    obtain ⟨t₁, ht₁, hqueue, -⟩ := htr ht'
    have : c.isQueued j ⟨index, record, owner⟩ = false := by simp [isQueued, alive]
    rw [hacc, isQueued_congr htaken hrec, List.filter_append, List.map_append,
      List.filter_cons_of_neg (by simp [this]), List.filter_nil, List.map_nil, List.append_nil,
      hqueue]
    exact h.queued ht₁

/-- The records that the end of an owner sends to a tracker are those that the tracker has
accepted for it. -/
theorem arrivals_firing {c : Course} (h : Ledger c) (owner index : Nat) :
    (System.arrivals (c.system.firing owner) index).filterMap Item.record? =
      ((c.acceptances.filter fun a =>
        a.index = index && (a.owner = owner && a.owner ∉ c.reclaimed)).reverse.map
          (·.record)) := by
  simp only [System.arrivals, System.firing, h.watched, List.filter_map, List.filterMap_map,
    List.filter_reverse, List.filter_filter, List.map_map, Function.comp_def, Acceptance.watch,
    Channel.tracker.injEq, List.filterMap_eq_map', Item.record?]
  rfl

/-- When an owner ends, the records accepted for it join those that are on their way. -/
theorem queued_reclaim {c c' : Course} (h : Ledger c) {owner : Nat}
    (htaken : c'.taken = c.taken) (hrec : c'.reclaimed = owner :: c.reclaimed) (index : Nat) :
    (c.acceptances.filter (c'.isQueued index)).Perm
      (c.acceptances.filter (c.isQueued index) ++ c.acceptances.filter fun a =>
        a.index = index && (a.owner = owner && a.owner ∉ c.reclaimed)) := by
  apply filter_perm_append
  · -- a record of a living owner has not been taken, so it counts as registered
    intro a ha
    have := h.reclaimed_of_taken ha
    simp only [isQueued, isRegistered, hrec, takenIds_congr htaken]
    by_cases hj : a.index = index <;> by_cases ho : a.owner = owner <;>
      by_cases hr : a.owner ∈ c.reclaimed <;> by_cases ht : a.record.id ∈ c.takenIds <;>
      simp_all
  · intro a ha hq
    simp only [isQueued, Bool.and_eq_true, decide_eq_true_eq] at hq
    simp [hq.2]

theorem reclaim {c c' : Course} (h : Ledger c) (owner : Nat)
    (hsys : c'.system = c.system.reclaim owner) (hacc : c'.acceptances = c.acceptances)
    (htaken : c'.taken = c.taken) (hrec : c'.reclaimed = owner :: c.reclaimed) : Ledger c' := by
  constructor
  case fresh =>
    rw [hacc, hsys, System.nextRecord_reclaim]
    exact h.fresh
  case distinct =>
    rw [hacc]
    exact h.distinct
  case placed =>
    rw [hacc, hsys, System.length_reclaim]
    exact h.placed
  case watched =>
    rw [hacc, hsys, hrec, System.watches_reclaim, h.watched, List.filter_map,
      List.filter_reverse, List.filter_filter]
    congr 3
    funext a
    by_cases ho : a.owner = owner <;> by_cases hr : a.owner ∈ c.reclaimed <;>
      simp [Acceptance.watch, ho, hr]
  case accounted =>
    rw [hacc, htaken, hrec]
    intro e he
    obtain ⟨a, ha, hindex, hrecord, howner⟩ := h.accounted e he
    exact ⟨a, ha, hindex, hrecord, List.mem_cons_of_mem _ howner⟩
  case takenOnce =>
    rw [takenIds_congr htaken]
    exact h.takenOnce
  case registered =>
    intro j t' ht'
    rw [hsys, System.tracker?_reclaim, Option.map_eq_some_iff] at ht'
    obtain ⟨t, ht, rfl⟩ := ht'
    have hregistry := h.registered ht
    rw [hacc, isRegistered_congr htaken]
    exact hregistry
  case queued =>
    intro j t' ht'
    rw [hsys, System.tracker?_reclaim, Option.map_eq_some_iff] at ht'
    obtain ⟨t, ht, rfl⟩ := ht'
    rw [List.filterMap_append, h.arrivals_firing, hacc]
    apply List.Perm.trans _ ((h.queued_reclaim htaken hrec j).map _).symm
    rw [List.map_append]
    exact (h.queued ht).append ((List.reverse_perm _).map _)

theorem nodup_queue {c : Course} (h : Ledger c) {index : Nat} {t : Tracker}
    (ht : c.system.tracker? index = some t) :
    ((t.queue.filterMap Item.record?).map (·.id)).Nodup := by
  rw [((h.queued ht).map _).nodup_iff, List.map_map]
  exact h.distinct.sublist (List.filter_sublist.map _)

/-- A record that is in the queue of one tracker is not to be found at another. -/
theorem id_ne_of_queue {c : Course} (h : Ledger c) {index j : Nat} {t t₁ : Tracker}
    {r r₁ : Record} (ht : c.system.tracker? index = some t) (hr : .record r ∈ t.queue)
    (ht₁ : c.system.tracker? j = some t₁) (hj : j ≠ index)
    (hr₁ : r₁ ∈ t₁.registry ∨ .record r₁ ∈ t₁.queue) : r₁.id ≠ r.id := by
  obtain ⟨b, hb, hbindex, rfl, -⟩ := (h.mem_queue ht).mp hr
  have hexists : ∃ a ∈ c.acceptances, a.index = j ∧ a.record = r₁ := by
    rcases hr₁ with hr₁ | hr₁
    · obtain ⟨a, ha, hindex, hrec, -⟩ := (h.mem_registry ht₁).mp hr₁
      exact ⟨a, ha, hindex, hrec⟩
    · obtain ⟨a, ha, hindex, hrec, -⟩ := (h.mem_queue ht₁).mp hr₁
      exact ⟨a, ha, hindex, hrec⟩
  obtain ⟨a, ha, rfl, rfl⟩ := hexists
  intro hid
  rw [h.eq_of_id_eq ha hb hid] at hj
  exact hj hbindex

/-- Taking a record removes its number from the registry and the queue of its tracker, and from
those of the others, where it is not. -/
theorem tracker?_take {c c' : Course} (h : Ledger c) {index : Nat} {t : Tracker} {r : Record}
    {queue : List Item} (found : c.system.tracker? index = some t)
    (next : t.queue = .record r :: queue)
    (hsys : c'.system = c.system.setTracker index { t with
      queue := queue, registry := Tracker.withdraw t.registry r, phase := .deleting r })
    {j : Nat} {t' : Tracker} (ht' : c'.system.tracker? j = some t') :
    ∃ t₁, c.system.tracker? j = some t₁ ∧
      t'.registry = t₁.registry.filter (fun x => x.id ≠ r.id) ∧
      t'.queue.filterMap Item.record? =
        (t₁.queue.filterMap Item.record?).filter fun x => x.id ≠ r.id := by
  have hr : .record r ∈ t.queue := next ▸ List.mem_cons_self
  rw [hsys, System.tracker?_set found] at ht'
  by_cases hj : j = index
  · subst hj
    rw [if_pos rfl, Option.some.injEq] at ht'
    subst ht'
    refine ⟨t, found, rfl, ?_⟩
    have hnodup := h.nodup_queue found
    rw [next, List.filterMap_cons_some (by rfl : Item.record? (.record r) = _)] at hnodup ⊢
    rw [List.filter_cons_of_neg (by simp), List.filter_eq_self.mpr]
    intro x hx
    have := (List.nodup_cons.mp hnodup).1
    simpa using fun hid => this (List.mem_map.mpr ⟨x, hx, hid⟩)
  · rw [if_neg hj] at ht'
    refine ⟨t', ht', ?_, ?_⟩
    · rw [List.filter_eq_self.mpr]
      intro x hx
      simpa using h.id_ne_of_queue found hr ht' hj (.inl hx)
    · rw [List.filter_eq_self.mpr]
      intro x hx
      obtain ⟨item, hitem, hx⟩ := List.mem_filterMap.mp hx
      cases item with
      | record x' =>
          obtain rfl : x' = x := Option.some.inj hx
          simpa using h.id_ne_of_queue found hr ht' hj (.inr hitem)
      | wake => cases hx

theorem take {c c' : Course} (h : Ledger c) {index : Nat} {t : Tracker} {r : Record}
    {queue : List Item} (found : c.system.tracker? index = some t)
    (next : t.queue = .record r :: queue)
    (hsys : c'.system = c.system.setTracker index { t with
      queue := queue, registry := Tracker.withdraw t.registry r, phase := .deleting r })
    (hacc : c'.acceptances = c.acceptances) (htaken : c'.taken = c.taken ++ [(index, r)])
    (hrec : c'.reclaimed = c.reclaimed) : Ledger c' := by
  obtain ⟨b, hb, hbindex, rfl, hbnew, hbowner⟩ :=
    (h.mem_queue found).mp (next ▸ List.mem_cons_self)
  have hids : c'.takenIds = c.takenIds ++ [b.record.id] := by simp [takenIds, htaken]
  have hreg : ∀ j a, c'.isRegistered j a =
      (decide (a.record.id ≠ b.record.id) && c.isRegistered j a) := by
    intro j a
    by_cases hid : a.record.id = b.record.id <;> by_cases hold : a.record.id ∈ c.takenIds <;>
      by_cases hj : a.index = j <;> simp_all [isRegistered]
  have hque : ∀ j a, c'.isQueued j a =
      (decide (a.record.id ≠ b.record.id) && c.isQueued j a) := by
    intro j a
    simp only [isQueued, hreg, hrec, Bool.and_assoc]
  constructor
  case fresh =>
    rw [hacc, hsys]
    exact h.fresh
  case distinct =>
    rw [hacc]
    exact h.distinct
  case placed =>
    rw [hacc, hsys, System.length_setTracker]
    exact h.placed
  case watched =>
    rw [hacc, hsys, hrec]
    exact h.watched
  case accounted =>
    rw [htaken, hacc, hrec]
    intro e he
    rw [List.mem_append, List.mem_singleton] at he
    rcases he with he | rfl
    · exact h.accounted e he
    · exact ⟨b, hb, hbindex, rfl, hbowner⟩
  case takenOnce =>
    rw [hids, List.nodup_append]
    refine ⟨h.takenOnce, List.nodup_singleton _, ?_⟩
    intro id hid id' hid' heq
    have : id' = b.record.id := by simpa using hid'
    exact hbnew (this ▸ heq ▸ hid)
  case registered =>
    intro j t' ht'
    obtain ⟨t₁, ht₁, hregistry, -⟩ := h.tracker?_take found next hsys ht'
    rw [hregistry, h.registered ht₁, hacc, List.filter_map, List.filter_filter]
    congr 1
    exact List.filter_congr fun a _ => (hreg j a).symm
  case queued =>
    intro j t' ht'
    obtain ⟨t₁, ht₁, -, hqueue⟩ := h.tracker?_take found next hsys ht'
    rw [hqueue, hacc]
    refine ((h.queued ht₁).filter _).trans (List.Perm.of_eq ?_)
    rw [List.filter_map, List.filter_filter]
    congr 1
    exact List.filter_congr fun a _ => (hque j a).symm

/-- The records in queues and registries are not touched by a worker that takes nothing. -/
theorem works_cases {t t' : Tracker} {events : List Event} (h : t.Works t' events) :
    (events.filterMap Event.taken? = [] ∧ t'.registry = t.registry ∧
      t'.queue.filterMap Item.record? = t.queue.filterMap Item.record?) ∨
    ∃ r queue, t.queue = .record r :: queue ∧ events = [.taken r] ∧
      t' = { t with
        queue := queue, registry := Tracker.withdraw t.registry r, phase := .deleting r } := by
  cases h with
  | take hp next => exact .inr ⟨_, _, next, rfl, rfl⟩
  | awake hp next =>
      refine .inl ⟨rfl, rfl, ?_⟩
      rw [next]
      rfl
  | testExit | stop | goOn | finish => exact .inl ⟨rfl, rfl, rfl⟩

/-- A tracker is exchanged for one with the same registry and the same records in its queue. -/
theorem exchange {c c' : Course} (h : Ledger c) {index : Nat} {t t₁ : Tracker}
    (found : c.system.tracker? index = some t)
    (hsys : c'.system = c.system.setTracker index t₁)
    (hacc : c'.acceptances = c.acceptances) (htaken : c'.taken = c.taken)
    (hrec : c'.reclaimed = c.reclaimed) (hregistry : t₁.registry = t.registry)
    (hqueue : t₁.queue.filterMap Item.record? = t.queue.filterMap Item.record?) :
    Ledger c' := by
  refine h.frame hacc htaken hrec (by rw [hsys]; rfl) (by rw [hsys]; rfl) (by simp [hsys]) ?_
  intro j t' ht'
  rw [hsys, System.tracker?_set found] at ht'
  by_cases hj : j = index
  · subst hj
    rw [if_pos rfl, Option.some.injEq] at ht'
    subst ht'
    exact .inl ⟨t, found, hregistry, hqueue⟩
  · rw [if_neg hj] at ht'
    exact .inl ⟨t', ht', rfl, rfl⟩

theorem change {c c' : Course} (h : Ledger c) (hch : c.Change c') : Ledger c' := by
  cases hch with
  | quiet host =>
      exact h.frame rfl rfl rfl rfl rfl (Nat.le_refl _) fun {_ t'} ht' =>
        .inl ⟨t', ht', rfl, rfl⟩
  | added threadName strategy =>
      refine h.frame rfl rfl rfl rfl rfl (by simp [System.addTracker]) ?_
      intro j t' ht'
      rcases System.tracker?_addTracker ht' with ht' | ⟨rfl, rfl⟩
      · exact .inl ⟨t', ht', rfl, rfl⟩
      · exact .inr ⟨Nat.le_refl _, rfl, rfl⟩
  | accepted host found opened free fresh alive =>
      refine h.accept found fresh alive rfl ?_ ?_ rfl
      · refine (acceptances_note c _ c.system _).trans ?_
        rw [List.filterMap_append, Tracker.acceptances_accept]
        rfl
      · refine (taken_note c _ c.system _).trans ?_
        rw [List.filterMap_append, Tracker.taken_accept]
        simp [Event.taken?]
  | reclaimed owner => exact h.reclaim owner rfl rfl rfl rfl
  | closed found opened free => exact h.exchange found rfl rfl rfl rfl rfl rfl
  | @roused index t found under =>
      refine h.exchange found rfl ?_ ?_ rfl t.registry_rouse ?_
      · exact (acceptances_note c index c.system _).trans (List.append_nil _)
      · exact (taken_note c index c.system _).trans (List.append_nil _)
      · unfold Tracker.rouse
        split
        · simp [Item.record?]
        · rfl
  | worked host notes found works =>
      rcases works_cases works with ⟨htaken, hregistry, hqueue⟩ | ⟨r, queue, next, rfl, rfl⟩
      · refine h.exchange found rfl ?_ ?_ rfl hregistry hqueue
        · refine (acceptances_note c _ c.system _).trans ?_
          rw [works.acceptances, List.append_nil]
        · refine (taken_note c _ c.system _).trans ?_
          rw [htaken, List.map_nil, List.append_nil]
      · refine h.take found next rfl ?_ ?_ rfl
        · refine (acceptances_note c _ c.system _).trans ?_
          simp [Event.acceptance?]
        · refine (taken_note c _ c.system _).trans ?_
          simp [Event.taken?]

end Ledger

theorem Reachable.ledger {c : Course} (hc : c.Reachable) : Ledger c :=
  hc.induct Ledger.start fun _ h hch => h.change hch

end Course
end Reclaim
