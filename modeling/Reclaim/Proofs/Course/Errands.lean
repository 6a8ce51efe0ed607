import Reclaim.Proofs.Command.Table
import Reclaim.Proofs.Course.Attended

/-!
Errands: paths that are tracked for an owner each, whose owners then end in the same order. Once the
worker has caught up it has been in the strategies of exactly these records, in this order, whenever
it went on in between. So it has done to the files what the command does that is given the same
paths, and has noted the paths of the rows that failed.
-/

namespace Reclaim

/-- A path to be deleted, and the owner that it is tracked for. -/
structure Errand where
  path : Path
  owner : Nat

namespace Errand

def track (strategy : Strategy) (index : Nat) (e : Errand) : Action :=
  .track index (.text e.path.text) ⟨e.owner, none⟩ (some strategy)

def reclaim (e : Errand) : Action :=
  .reclaim e.owner

/-- All paths are tracked, and then the owners end in the same order. -/
def calls (strategy : Strategy) (index : Nat) (errands : List Errand) : List Action :=
  errands.map (track strategy index) ++ errands.map reclaim

structure AcceptedAs (strategy : Strategy) (index : Nat) (e : Errand) (a : Acceptance) : Prop where
  index : a.index = index
  owner : a.owner = e.owner
  stands : Command.StandsFor strategy e.path a.record

variable {strategy : Strategy} {index : Nat} {errands : List Errand} {accepted : List Acceptance}

theorem owners_of_accepted (h : List.Forall₂ (AcceptedAs strategy index) errands accepted) :
    accepted.map (·.owner) = errands.map (·.owner) := by
  induction h with
  | nil => rfl
  | cons ha rest ih => rw [List.map_cons, List.map_cons, ih, ha.owner]

theorem mem_of_accepted (h : List.Forall₂ (AcceptedAs strategy index) errands accepted) :
    ∀ a ∈ accepted, a.index = index ∧ a.record.strategy = strategy := by
  induction h with
  | nil => nofun
  | cons ha rest ih => exact List.forall_mem_cons.mpr ⟨⟨ha.index, ha.stands.strategy⟩, ih⟩

end Errand

namespace Course

variable {c c₁ c' : Course} {index : Nat} {t t' : Tracker} {strategy : Strategy}
  {errands : List Errand}

theorem dueAfter_append_alive {reclaimed : List Nat} {more : List Acceptance}
    (alive : ∀ a ∈ more, a.owner ∉ reclaimed) (acceptances : List Acceptance) (index : Nat) :
    dueAfter (acceptances ++ more) index reclaimed = dueAfter acceptances index reclaimed := by
  induction more generalizing acceptances with
  | nil => rw [List.append_nil]
  | cons a more ih =>
      rw [← List.singleton_append, ← List.append_assoc,
        ih fun b hb => alive b (List.mem_cons_of_mem _ hb),
        dueAfter_append (alive a List.mem_cons_self)]

theorem dueAfter_reverse_append {owners reclaimed : List Nat} (distinct : owners.Nodup)
    (alive : ∀ owner ∈ owners, owner ∉ reclaimed) (acceptances : List Acceptance) (index : Nat) :
    dueAfter acceptances index (owners.reverse ++ reclaimed) =
      dueAfter acceptances index reclaimed ++ owners.flatMap (acceptedFor acceptances index) := by
  induction owners generalizing reclaimed with
  | nil => exact (List.append_nil _).symm
  | cons owner owners ih =>
      obtain ⟨hnew, hdistinct⟩ := List.nodup_cons.mp distinct
      have halive := alive owner List.mem_cons_self
      have hothers : ∀ other ∈ owners, other ∉ owner :: reclaimed := by
        intro other hother hmem
        rcases List.mem_cons.mp hmem with rfl | hmem
        · exact hnew hother
        · exact alive other (List.mem_cons_of_mem _ hother) hmem
      rw [List.reverse_cons, List.append_assoc, List.singleton_append, ih hdistinct hothers,
        dueAfter, if_neg halive, List.flatMap_cons, List.append_assoc]

/-- Of owners that had no record before, each has the one that was accepted for it since. -/
theorem acceptedFor_append {acceptances more : List Acceptance}
    (fresh : ∀ a ∈ acceptances, a.index = index → a.owner ∉ more.map (·.owner))
    (placed : ∀ a ∈ more, a.index = index) (distinct : (more.map (·.owner)).Nodup)
    {a : Acceptance} (ha : a ∈ more) :
    acceptedFor (acceptances ++ more) index a.owner = [a.record] := by
  have hbefore : acceptances.filter (fun b => b.index = index && b.owner = a.owner) = [] := by
    rw [List.filter_eq_nil_iff]
    intro b hb hsame
    simp only [Bool.and_eq_true, decide_eq_true_eq] at hsame
    exact fresh b hb hsame.1 (hsame.2 ▸ List.mem_map_of_mem ha)
  have hsince : more.filter (fun b => b.index = index && b.owner = a.owner) = [a] := by
    have hsame : ∀ b ∈ more, (b.index = index && b.owner = a.owner) = (b == a) := by
      intro b hb
      rw [Bool.eq_iff_iff]
      simp only [placed b hb, decide_true, Bool.true_and, decide_eq_true_eq, beq_iff_eq]
      exact ⟨List.inj_on_of_nodup_map distinct hb ha, congrArg _⟩
    rw [List.filter_congr hsame, List.filter_beq,
      List.count_eq_one_of_mem (List.Nodup.of_map _ distinct) ha]
    rfl
  rw [acceptedFor, List.filter_append, hbefore, hsince]
  rfl

theorem flatMap_acceptedFor {acceptances more : List Acceptance}
    (fresh : ∀ a ∈ acceptances, a.index = index → a.owner ∉ more.map (·.owner))
    (placed : ∀ a ∈ more, a.index = index) (distinct : (more.map (·.owner)).Nodup) :
    (more.map (·.owner)).flatMap (acceptedFor (acceptances ++ more) index) =
      more.map (·.record) := by
  rw [List.flatMap_map, List.flatMap_congr fun a ha => acceptedFor_append fresh placed distinct ha]
  exact List.flatMap_pure_eq_map ..

/-- A tracker that accepts paths. -/
structure Accepting (c : Course) (index : Nat) : Prop where
  found : ∃ t, c.system.tracker? index = some t ∧ t.exiting = false
  free : index ∉ c.closing

theorem Accepting.attends {done : List (Record × Outcome)} (h : c.Accepting index)
    (attends : c.Attends index t c' t' done) : c'.Accepting index := by
  obtain ⟨t₁, ht₁, opened⟩ := h.found
  obtain rfl : t₁ = t := Option.some.inj (ht₁.symm.trans attends.found)
  obtain ⟨events, works⟩ := attends.works
  exact ⟨⟨t', attends.left, works.exiting.trans opened⟩, attends.closing ▸ h.free⟩

/-- The path of an errand is tracked if the tracker accepts paths and the owner lives. -/
theorem exists_track (accepting : c.Accepting index) {e : Errand} (hread : e.path.IsRead)
    (alive : e.owner ∉ c.reclaimed) (strategy : Strategy) :
    ∃ c' a, c.next? (e.track strategy index) = some c' ∧ e.AcceptedAs strategy index a ∧
      c'.acceptances = c.acceptances ++ [a] ∧ c'.reclaimed = c.reclaimed ∧
      c'.Accepting index := by
  obtain ⟨⟨t, ht, opened⟩, hfree⟩ := accepting
  have hstored : (PathArgument.text e.path.text).stored c.host.currentDirectory? =
      .ok e.path.text := PathArgument.stored_text_iff.mpr ⟨Path.text_ne_empty hread, rfl⟩
  obtain ⟨record, hrecord⟩ : ∃ record : Record,
      record = ⟨c.system.nextRecord, e.path.text, strategy⟩ := ⟨_, rfl⟩
  have htrack : c.system.track index c.host.currentDirectory? (.text e.path.text)
      ⟨e.owner, none⟩ (some strategy) =
        .ok ((c.system.setTracker index (t.accept record).1).watch record e.owner (.tracker index),
          (t.accept record).2 ++ [.tracked record e.owner]) := by
    rw [System.track_of_stored hstored]
    simp [System.trackStored, ht, opened, hrecord]
  have hadmits : c.admits index ⟨e.owner, none⟩ = true := by simp [admits, hfree, alive]
  refine ⟨c.note index
      ((c.system.setTracker index (t.accept record).1).watch record e.owner (.tracker index))
      ((t.accept record).2 ++ [.tracked record e.owner]), ⟨index, record, e.owner⟩, ?_,
    ⟨rfl, rfl, hread, by rw [hrecord], by rw [hrecord]⟩, ?_, rfl, ?_⟩
  · rw [Errand.track, next?_track, if_pos hadmits, htrack, answered]
  · rw [acceptances_note, List.filterMap_append, Tracker.acceptances_accept]
    rfl
  · have ht' := (System.tracker?_set ht (t.accept record).1 index).trans (if_pos rfl)
    refine ⟨⟨_, ht', ?_⟩, hfree⟩
    unfold Tracker.accept
    split <;> exact opened

theorem Accepting.reclaim (h : c.Accepting index) (owner : Nat) :
    Accepting { c with system := c.system.reclaim owner, reclaimed := owner :: c.reclaimed }
      index := by
  obtain ⟨⟨t, ht, opened⟩, hfree⟩ := h
  have ht' := c.system.tracker?_reclaim owner index
  rw [ht] at ht'
  exact ⟨⟨_, ht', opened⟩, hfree⟩

/-- While the paths are tracked one record is accepted for each, in their order. -/
theorem Attended.accepted (h : c.Attended index (errands.map (Errand.track strategy index)) c')
    (accepting : c.Accepting index) (read : ∀ e ∈ errands, e.path.IsRead)
    (alive : ∀ e ∈ errands, e.owner ∉ c.reclaimed) :
    ∃ accepted, List.Forall₂ (Errand.AcceptedAs strategy index) errands accepted ∧
      c'.acceptances = c.acceptances ++ accepted ∧ c'.reclaimed = c.reclaimed ∧
      c'.Accepting index := by
  generalize hcalls : errands.map (Errand.track strategy index) = calls at h
  induction h generalizing errands with
  | rest c =>
      obtain rfl := List.map_eq_nil_iff.mp hcalls
      exact ⟨[], .nil, (List.append_nil _).symm, rfl, accepting⟩
  | @call c c₁ c' action calls plain hnext rest ih =>
      obtain ⟨e, errands, rfl, rfl, rfl⟩ := List.map_eq_cons_iff.mp hcalls
      obtain ⟨c₂, a, htrack, haccepted, hacc, hrec, haccepting⟩ := exists_track accepting
        (read e List.mem_cons_self) (alive e List.mem_cons_self) strategy
      obtain rfl : c₁ = c₂ := Option.some.inj (hnext.symm.trans htrack)
      obtain ⟨accepted, hall, hacc', hrec', haccepting'⟩ := ih haccepting
        (fun e he => read e (List.mem_cons_of_mem _ he))
        (fun e he => hrec ▸ alive e (List.mem_cons_of_mem _ he)) rfl
      refine ⟨a :: accepted, .cons haccepted hall, ?_, hrec'.trans hrec, haccepting'⟩
      rw [hacc', hacc, List.append_assoc, List.singleton_append]
  | work hwork rest ih =>
      obtain ⟨t, t', done, attends⟩ := attends_of_attend? hwork
      obtain ⟨accepted, hall, hacc, hrec, haccepting⟩ := ih (accepting.attends attends) read
        (fun e he => attends.reclaimed ▸ alive e he) hcalls
      exact ⟨accepted, hall, attends.acceptances ▸ hacc, attends.reclaimed ▸ hrec, haccepting⟩

theorem Attended.ended (h : c.Attended index (errands.map Errand.reclaim) c')
    (accepting : c.Accepting index) :
    c'.acceptances = c.acceptances ∧
      c'.reclaimed = (errands.map (·.owner)).reverse ++ c.reclaimed ∧ c'.Accepting index := by
  generalize hcalls : errands.map Errand.reclaim = calls at h
  induction h generalizing errands with
  | rest c =>
      obtain rfl := List.map_eq_nil_iff.mp hcalls
      exact ⟨rfl, rfl, accepting⟩
  | @call c c₁ c' action calls plain hnext rest ih =>
      obtain ⟨e, errands, rfl, rfl, rfl⟩ := List.map_eq_cons_iff.mp hcalls
      cases hnext
      obtain ⟨hacc, hrec, haccepting'⟩ := ih (accepting.reclaim e.owner) rfl
      refine ⟨hacc, ?_, haccepting'⟩
      rw [hrec, List.map_cons, List.reverse_cons, List.append_assoc, List.singleton_append]
  | work hwork rest ih =>
      obtain ⟨t, t', done, attends⟩ := attends_of_attend? hwork
      obtain ⟨hacc, hrec, haccepting⟩ := ih (accepting.attends attends) hcalls
      exact ⟨attends.acceptances ▸ hacc, attends.reclaimed ▸ hrec, haccepting⟩

/-- A worker that has caught up, of a tracker that accepts paths, has nothing in hand and nothing on
its way, unless it has fallen. -/
theorem Reachable.nothing_underway (hc : c.Reachable) (ht : c.system.tracker? index = some t)
    (opened : t.exiting = false) (upright : t.phase ≠ .fallen) (caught : t.isCaughtUp = true) :
    t.phase.inHand? = none ∧ t.queue.filterMap Item.record? = [] := by
  rcases t.isCaughtUp_cases caught with hp | hp | hp | ⟨hp, hq⟩
  · -- nothing has been accepted yet
    have hnone : c.acceptedAt index = [] := (hc.lawful ht).unstarted.mp hp
    refine ⟨by rw [hp]; rfl, ?_⟩
    rw [List.eq_nil_iff_forall_not_mem]
    intro record hrecord
    rw [(hc.ledger.queued ht).mem_iff, List.mem_map] at hrecord
    obtain ⟨a, ha, rfl⟩ := hrecord
    obtain ⟨ha, hqueued⟩ := List.mem_filter.mp ha
    simp only [isQueued, isRegistered, Bool.and_eq_true, decide_eq_true_eq] at hqueued
    have haccepted : a.record ∈ c.acceptedAt index :=
      mem_acceptedAt.mpr ⟨a.owner, hqueued.1.1 ▸ ha⟩
    rw [hnone] at haccepted
    cases haccepted
  · have hexiting := ((hc.lawful ht).ended hp).1
    rw [opened] at hexiting
    cases hexiting
  · exact absurd hp upright
  · rw [hp, hq]
    exact ⟨rfl, rfl⟩

/-- A tracker that accepts paths and whose worker has caught up and not fallen, and errands for
owners that live, one for each, and have no record there. -/
structure Ready (c : Course) (index : Nat) (t : Tracker) (errands : List Errand) : Prop where
  found : c.system.tracker? index = some t
  opened : t.exiting = false
  upright : t.phase ≠ .fallen
  caught : t.isCaughtUp = true
  read : ∀ e ∈ errands, e.path.IsRead
  alive : ∀ e ∈ errands, e.owner ∉ c.reclaimed
  fresh : ∀ e ∈ errands, ∀ a ∈ c.acceptances, a.index = index → a.owner ≠ e.owner
  distinct : (errands.map (·.owner)).Nodup

theorem Ready.accepting (ready : c.Ready index t errands) (hc : c.Reachable) :
    c.Accepting index := by
  refine ⟨⟨t, ready.found, ready.opened⟩, fun hclosing => ?_⟩
  have hexiting := (hc.lawful ready.found).closing (by simpa [isClosing] using hclosing)
  rw [ready.opened] at hexiting
  cases hexiting

/-- The records due after some errands are those accepted for them, in their order. -/
theorem Attended.due (h : c.Attended index (Errand.calls strategy index errands) c')
    (hc : c.Reachable) (ready : c.Ready index t errands) :
    ∃ accepted, List.Forall₂ (Errand.AcceptedAs strategy index) errands accepted ∧
      c'.dueAt index = c.dueAt index ++ accepted.map (·.record) ∧ c'.Accepting index := by
  obtain ⟨c₁, htracks, hends⟩ := h.split
  obtain ⟨accepted, hall, hacc, hrec, accepting⟩ :=
    htracks.accepted (ready.accepting hc) ready.read ready.alive
  obtain ⟨hacc', hrec', accepting'⟩ := hends.ended accepting
  have howners := Errand.owners_of_accepted hall
  have hplaced := fun a ha => (Errand.mem_of_accepted hall a ha).1
  have halive : ∀ owner ∈ accepted.map (·.owner), owner ∉ c.reclaimed := by
    rw [howners]
    intro owner howner
    obtain ⟨e, he, rfl⟩ := List.mem_map.mp howner
    exact ready.alive e he
  have hfresh : ∀ a ∈ c.acceptances, a.index = index → a.owner ∉ accepted.map (·.owner) := by
    rw [howners]
    intro a ha hindex howner
    obtain ⟨e, he, hsame⟩ := List.mem_map.mp howner
    exact ready.fresh e he a ha hindex hsame.symm
  have hdistinct : (accepted.map (·.owner)).Nodup := howners ▸ ready.distinct
  refine ⟨accepted, hall, ?_, accepting'⟩
  rw [dueAt, hacc', hacc, hrec', hrec, ← howners, dueAfter_reverse_append hdistinct halive,
    flatMap_acceptedFor hfresh hplaced hdistinct,
    dueAfter_append_alive fun a ha => halive _ (List.mem_map_of_mem ha)]
  rfl

/-- What the worker has done since, what it has in hand and what is on its way to it are the records
accepted for the errands, in their order. -/
theorem Attended.processed (h : c.Attended index (Errand.calls strategy index errands) c')
    (hc : c.Reachable) (ready : c.Ready index t errands)
    (ht' : c'.system.tracker? index = some t') :
    ∃ done accepted, List.Forall₂ (Errand.AcceptedAs strategy index) errands accepted ∧
      done.map (·.1) ++ (t'.phase.inHand?.toList ++ t'.queue.filterMap Item.record?) =
        accepted.map (·.record) ∧
      Sweeps c.host done c'.host ∧ t'.failures = t.failures ++ failedPaths done ∧
      t'.exiting = false ∧ c'.endingsAt index = c.endingsAt index ++ done := by
  have hc' := h.reachable hc
  obtain ⟨done, hendings, hsweeps⟩ := h.sweeps
  obtain ⟨accepted, hall, hdue, ⟨⟨t₁, ht₁, opened⟩, -⟩⟩ := h.due hc ready
  obtain rfl : t' = t₁ := Option.some.inj (ht'.symm.trans ht₁)
  obtain ⟨hhand, hqueue⟩ :=
    hc.nothing_underway ready.found ready.opened ready.upright ready.caught
  refine ⟨done, accepted, hall, ?_, hsweeps, ?_, opened, hendings⟩
  · have hbefore := hc.inOrder index t ready.found
    have hafter := hc'.inOrder index t' ht'
    rw [hc.takenAt_eq ready.found, hhand, hqueue, Option.toList_none, List.append_nil,
      List.append_nil] at hbefore
    rw [hc'.takenAt_eq ht', hdue, ← hbefore, finishedAt_eq, finishedAt_eq, hendings,
      List.map_append] at hafter
    simpa only [List.append_assoc, List.append_cancel_left_eq] using hafter
  · rw [hc'.exact ht', hc.exact ready.found, hendings, failedPaths, failedPaths, failedPaths,
      List.filter_append, List.map_append]

/-- Strategies that attempt the deletion bring no worker down. -/
theorem Attended.upright (h : c.Attended index (Errand.calls strategy index errands) c')
    (hc : c.Reachable) (ready : c.Ready index t errands) (attempts : strategy.quiet = .attempts)
    (ht' : c'.system.tracker? index = some t') : t'.phase ≠ .fallen := by
  intro hp
  obtain ⟨done, accepted, hall, hrecords, hsweeps, -, -, hendings⟩ := h.processed hc ready ht'
  obtain ⟨record, hundecided⟩ := ((h.reachable hc).lawful ht').fallen_iff.mp hp
  rw [← mem_endingsAt, hendings, List.mem_append] at hundecided
  rcases hundecided with hbefore | hsince
  · exact ready.upright ((hc.lawful ready.found).fallen_iff.mpr ⟨record, mem_endingsAt.mp hbefore⟩)
  · -- the record is one of those accepted for the errands, so it has been told what has become of it
    have hmem : record ∈ accepted.map (·.record) := by
      rw [← hrecords]
      exact List.mem_append_left _ (List.mem_map_of_mem hsince)
    obtain ⟨a, ha, rfl⟩ := List.mem_map.mp hmem
    have hattempts : a.record.strategy.quiet = .attempts :=
      (Errand.mem_of_accepted hall a ha).2 ▸ attempts
    obtain ⟨found, hfound⟩ := hsweeps.exists_of_mem hsince
    obtain ⟨outcome, ho, htold, -⟩ := Record.deleteQuietly_removed hattempts found
    obtain rfl : .undecided = outcome := Option.some.inj (hfound.symm.trans ho)
    cases htold

end Course
end Reclaim
