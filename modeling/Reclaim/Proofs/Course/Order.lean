import Reclaim.Proofs.Course.Drain

/-!
The order in which records are processed. When an owner is reclaimed, a tracker is sent the
records that it accepted for that owner, newest first, and its worker takes them in the order in
which they come. So the records taken so far, followed by those on their way, are determined by
the acceptances and by the order in which owners were reclaimed. How strategies end plays no part:
two courses that differ in nothing else take and finish the same records in the same order, and
hold the same ones.
-/

namespace Reclaim

namespace Course

/-- The records that a tracker has accepted for an owner, newest first. -/
def acceptedFor (acceptances : List Acceptance) (index owner : Nat) : List Record :=
  (acceptances.filter fun a => a.index = index && a.owner = owner).reverse.map (·.record)

/-- The records that become due at a tracker as owners end, latest end first. Only the first end
of an owner counts. -/
def dueAfter (acceptances : List Acceptance) (index : Nat) : List Nat → List Record
  | [] => []
  | owner :: earlier =>
      dueAfter acceptances index earlier ++
        if owner ∈ earlier then [] else acceptedFor acceptances index owner

/-- The records that have become due at a tracker, in order. -/
def dueAt (c : Course) (index : Nat) : List Record :=
  dueAfter c.acceptances index c.reclaimed

theorem dueAfter_eq_nil {acceptances : List Acceptance} {index : Nat}
    (h : ∀ a ∈ acceptances, a.index ≠ index) (reclaimed : List Nat) :
    dueAfter acceptances index reclaimed = [] := by
  induction reclaimed with
  | nil => rfl
  | cons owner earlier ih =>
      have hnone : acceptedFor acceptances index owner = [] := by
        simp only [acceptedFor, List.map_eq_nil_iff, List.reverse_eq_nil_iff,
          List.filter_eq_nil_iff]
        intro a ha
        simp [h a ha]
      simp [dueAfter, ih, hnone]

theorem dueAfter_append {reclaimed : List Nat} {a : Acceptance} (alive : a.owner ∉ reclaimed)
    (acceptances : List Acceptance) (index : Nat) :
    dueAfter (acceptances ++ [a]) index reclaimed = dueAfter acceptances index reclaimed := by
  induction reclaimed with
  | nil => rfl
  | cons owner earlier ih =>
      have hne : a.owner ≠ owner := fun heq => alive (heq ▸ List.mem_cons_self)
      have hsame : acceptedFor (acceptances ++ [a]) index owner =
          acceptedFor acceptances index owner := by
        simp [acceptedFor, List.filter_append, hne]
      rw [dueAfter, dueAfter, ih fun h => alive (List.mem_cons_of_mem _ h), hsame]

theorem takenAt_note (c : Course) (index : Nat) (s : System) (events : List Event) (j : Nat) :
    (c.note index s events).takenAt j =
      c.takenAt j ++ if index = j then events.filterMap Event.taken? else [] := by
  rw [takenAt, eventsAt_note, List.filterMap_append, ← takenAt]
  split <;> rfl

/-- At every tracker, the records taken and those on their way are the due ones, in order. -/
def InOrder (c : Course) : Prop :=
  ∀ j t, c.system.tracker? j = some t →
    c.takenAt j ++ t.queue.filterMap Item.record? = c.dueAt j

namespace InOrder

variable {c c' : Course}

theorem exchange (h : c.InOrder) {index : Nat} {t t₁ : Tracker} (events : List Event)
    (found : c.system.tracker? index = some t)
    (hsys : ∀ j, c'.system.tracker? j = if j = index then some t₁ else c.system.tracker? j)
    (htaken : ∀ j, c'.takenAt j =
      c.takenAt j ++ if index = j then events.filterMap Event.taken? else [])
    (hdue : ∀ j, c'.dueAt j = c.dueAt j)
    (hqueue : events.filterMap Event.taken? ++ t₁.queue.filterMap Item.record? =
      t.queue.filterMap Item.record?) : c'.InOrder := by
  intro j t' ht'
  rw [hsys] at ht'
  rw [htaken, hdue]
  by_cases hj : j = index
  · subst hj
    rw [if_pos rfl, Option.some.injEq] at ht'
    subst ht'
    rw [if_pos rfl, List.append_assoc, hqueue]
    exact h j t found
  · rw [if_neg hj] at ht'
    rw [if_neg (Ne.symm hj), List.append_nil]
    exact h j t' ht'

theorem reclaim (h : c.InOrder) (ledger : c.Ledger) (owner : Nat) :
    InOrder { c with system := c.system.reclaim owner, reclaimed := owner :: c.reclaimed } := by
  intro j t' ht'
  rw [System.tracker?_reclaim, Option.map_eq_some_iff] at ht'
  obtain ⟨t, ht, rfl⟩ := ht'
  have hsent : (System.arrivals (c.system.firing owner) j).filterMap Item.record? =
      if owner ∈ c.reclaimed then [] else acceptedFor c.acceptances j owner := by
    rw [ledger.arrivals_firing]
    by_cases hr : owner ∈ c.reclaimed
    · -- all watches of an owner have fired at its first end
      rw [if_pos hr, List.map_eq_nil_iff, List.reverse_eq_nil_iff, List.filter_eq_nil_iff]
      rintro a -
      by_cases ho : a.owner = owner <;> simp [ho, hr]
    · rw [if_neg hr, acceptedFor]
      congr 3
      funext a
      by_cases ho : a.owner = owner <;> simp [ho, hr]
  show c.takenAt j ++ (t.queue ++ _).filterMap Item.record? = c.dueAt j ++ _
  rw [List.filterMap_append, hsent, ← List.append_assoc, h j t ht]
  rfl

theorem change (h : c.InOrder) (hc : c.Reachable) (hch : c.Change c') : c'.InOrder := by
  cases hch with
  | quiet host => exact h
  | added threadName strategy =>
      intro j t' ht'
      rcases System.tracker?_addTracker ht' with ht' | ⟨rfl, rfl⟩
      · exact h j t' ht'
      · -- nothing has happened yet at a tracker that is new
        have htaken : c.takenAt c.system.trackers.length = [] := by
          rw [takenAt, hc.confined.eventsAt (Nat.le_refl _)]
          rfl
        have hdue : c.dueAt c.system.trackers.length = [] :=
          dueAfter_eq_nil (fun a ha => Nat.ne_of_lt (hc.ledger.placed a ha)) _
        exact (congrArg (· ++ []) htaken).trans hdue.symm
  | @accepted index owner t record host found opened free fresh alive =>
      -- the owner is alive, so its record is not due yet
      refine h.exchange _ found (System.tracker?_set found (t.accept record).1)
        (takenAt_note c index c.system _) (fun j => ?_) ?_
      · have hacc := acceptances_note c index c.system ((t.accept record).2 ++ [.tracked record owner])
        rw [List.filterMap_append, Tracker.acceptances_accept] at hacc
        exact (congrArg (dueAfter · j c.reclaimed) hacc).trans (dueAfter_append alive _ j)
      · rw [List.filterMap_append, Tracker.taken_accept, Tracker.queue_accept]
        rfl
  | reclaimed owner => exact h.reclaim hc.ledger owner
  | @closed index t found opened free =>
      refine h.exchange [] found (System.tracker?_set found _) (fun j => ?_)
        (fun _ => rfl) rfl
      split <;> exact (List.append_nil _).symm
  | @roused index t found under =>
      refine h.exchange _ found (System.tracker?_set found t.rouse)
        (takenAt_note c index c.system [.exitRequested t.count]) (fun j => ?_) ?_
      · have hacc := acceptances_note c index c.system [.exitRequested t.count]
        exact congrArg (dueAfter · j c.reclaimed) (hacc.trans (List.append_nil _))
      · -- a wake-up call brings no record
        unfold Tracker.rouse
        split <;> simp [List.filterMap_cons, Event.taken?, Item.record?]
  | @worked index t t' events host notes found works =>
      refine h.exchange _ found (System.tracker?_set found t')
        (takenAt_note c index c.system events) (fun j => ?_) ?_
      · have hacc := acceptances_note c index c.system events
        rw [works.acceptances, List.append_nil] at hacc
        exact congrArg (dueAfter · j c.reclaimed) hacc
      · rcases Ledger.works_cases works with ⟨hnone, -, hqueue⟩ | ⟨r, queue, next, rfl, rfl⟩
        · rw [hnone, hqueue, List.nil_append]
        · rw [next]
          rfl

theorem start (host : Host) : InOrder (Course.start host) := by
  intro j t ht
  simp [Course.start, System.empty, System.tracker?] at ht

end InOrder

/-- The records taken at a tracker, followed by those on their way, are the due ones. -/
theorem Reachable.inOrder {c : Course} (hc : c.Reachable) : c.InOrder :=
  hc.induct InOrder.start fun hc h hch => h.change hc hch

end Course
end Reclaim
