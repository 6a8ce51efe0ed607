import Reclaim.Proofs.Course.Drain
import Reclaim.Proofs.Deletion.Effect

/-!
What workers do to the files. Seen from a course, one step of a worker is one of its actions, and
only the end of a strategy touches the files. When the strategy of a record is one of the two
with a name, its path then leads nowhere or has been noted as a failure, and what was removed lay
where the path of that record reaches, whose owner is gone.
-/

namespace Reclaim

open Files

theorem Work.step_of_inHand {w : Work} {index : Nat} {record : Record} {outcome : Outcome}
    {s : System} {events : List Event} (hhand : w.inHand? index = some record)
    (ho : (record.deleteQuietly w.host).outcome = some outcome)
    (hfinish : w.system.finish index outcome = some (s, events)) :
    w.step index = some (⟨s, (record.deleteQuietly w.host).host,
        w.notes ++ (record.deleteQuietly w.host).noted.toList⟩,
      (record.deleteQuietly w.host).log ++ w.logOf index events) := by
  simp [Work.step, hhand, ho, hfinish]

namespace Course

variable {c : Course} {index : Nat} {t : Tracker}

/-- A worker that is in the strategy of a record has taken it, because its owner is gone. -/
theorem Reachable.in_hand (hc : c.Reachable) (ht : c.system.tracker? index = some t)
    {record : Record} (hp : t.phase = .deleting record) :
    ∃ owner, ⟨index, record, owner⟩ ∈ c.acceptances ∧ owner ∈ c.reclaimed := by
  have hsame : c.takenAt index = c.finishedAt index ++ t.phase.inHand?.toList :=
    (hc.lawful ht).taken
  have htaken : record ∈ c.takenAt index := by
    rw [hsame, hp]
    exact List.mem_append_right _ List.mem_cons_self
  obtain ⟨a, ha, hindex, hrec, howner⟩ := hc.ledger.accounted _ (mem_takenAt.mp htaken)
  obtain rfl : a.index = index := hindex
  obtain rfl : a.record = record := hrec
  exact ⟨a.owner, ha, howner⟩

/-- The end of a strategy, as a step of the worker and as an action of the course. -/
theorem step_of_deleting (ht : c.system.tracker? index = some t) {record : Record}
    (hp : t.phase = .deleting record) {outcome : Outcome}
    (ho : (record.deleteQuietly c.host).outcome = some outcome) :
    ∃ c', c.next? (.finish index (record.deleteQuietly c.host)) = some c' ∧
      (∃ log, c.work.step index = some (c'.work, log)) ∧
      c'.host = (record.deleteQuietly c.host).host ∧
      c'.system.tracker? index = some (t.conclude record outcome) := by
  have hhand : c.work.inHand? index = some record := Work.inHand?_of_phase ht hp
  have hfinish : c.system.finish index outcome =
      some (c.system.setTracker index (t.conclude record outcome), [.finished record outcome]) := by
    simp [System.finish, ht, Tracker.finish, hp]
  have hnext := next?_finish ht hp (record.invoked_deleteQuietly c.host) ho
  exact ⟨_, hnext, ⟨_, Work.step_of_inHand hhand ho hfinish⟩, rfl,
    (System.tracker?_set ht _ index).trans (if_pos rfl)⟩

theorem step_of_advance (ht : c.system.tracker? index = some t) (hp : t.phase.inHand? = none)
    {w : Work} {log : List LogLine} (h : c.work.step index = some (w, log)) :
    ∃ c', c.next? (.advance index) = some c' ∧ c'.work = w ∧ w.host = c.host := by
  have hhand : c.work.inHand? index = none := by
    cases hphase : t.phase <;> simp [Work.inHand?, work, ht, hphase, Phase.inHand?] at hp ⊢
  have hsystem : c.work.system = c.system := rfl
  simp only [Work.step, hhand, hsystem] at h
  cases hadvance : c.system.advance index with
  | none => simp [hadvance] at h
  | some moved =>
      simp only [hadvance, Option.some.injEq, Prod.mk.injEq] at h
      obtain ⟨rfl, -⟩ := h
      exact ⟨c.note index moved.1 moved.2, by simp [next?, hadvance], rfl, rfl⟩

theorem Reachable.finishes (hc : c.Reachable) (ht : c.system.tracker? index = some t)
    (builtin : ∀ record ∈ c.acceptedAt index,
      record.strategy = .normal ∨ record.strategy = .force)
    {record : Record} (hp : t.phase = .deleting record) :
    ∃ c' t' log, c.work.step index = some (c'.work, log) ∧
      c.next? (.finish index (record.deleteQuietly c.host)) = some c' ∧
      c'.system.tracker? index = some t' ∧
      (c'.host.Vacant record.path ∨ t'.failures = t.failures ++ [record.path]) ∧
      c.host.tree.Loses c'.host.tree (c.host.tree.Reaches c.host.cwd
        (Path.ofText record.path).text (record.strategy = .force)) := by
  obtain ⟨owner, haccepted, -⟩ := hc.in_hand ht hp
  have hstrategy := builtin record (mem_acceptedAt.mpr ⟨owner, haccepted⟩)
  have hattempts : record.strategy.quiet = .attempts := by
    rcases hstrategy with h | h <;> rw [h] <;> rfl
  have hrecursive : decide (record.strategy.removal = .recursive) =
      decide (record.strategy = .force) := by
    rcases hstrategy with h | h <;> rw [h] <;> decide
  obtain ⟨outcome, ho, htold, hloses, hvacant⟩ := Record.deleteQuietly_removed hattempts c.host
  obtain ⟨c', hnext, ⟨log, hstep⟩, hhost, ht'⟩ := step_of_deleting ht hp ho
  rw [hrecursive] at hloses
  refine ⟨c', t.conclude record outcome, log, hstep, hnext, ht', ?_, hhost ▸ hloses⟩
  by_cases hdeleted : outcome = .deleted
  · exact .inl (hhost ▸ hvacant hdeleted)
  · refine .inr ?_
    exact if_pos (htold.trans (decide_eq_true hdeleted))

/-- Whenever a worker whose records all use one of the two strategies with a name finishes a
record, its path leads nowhere or has just been noted as a failure; and whenever such a worker
takes a step, it removes entries only where the path reaches that belongs to the record in hand,
whose owner is gone, and changes nothing else. -/
theorem gone_or_reported (hc : c.Reachable) (ht : c.system.tracker? index = some t)
    (builtin : ∀ record ∈ c.acceptedAt index,
      record.strategy = .normal ∨ record.strategy = .force) :
    (∀ record, t.phase = .deleting record → ∃ w log t',
      c.work.step index = some (w, log) ∧ w.system.tracker? index = some t' ∧
        (w.host.Vacant record.path ∨ t'.failures = t.failures ++ [record.path])) ∧
    ∀ w log, c.work.step index = some (w, log) →
      (∃ action c', action.isWork index = true ∧ c.next? action = some c' ∧ c'.work = w) ∧
      ∀ place, w.host.tree.get? place = c.host.tree.get? place ∨
        w.host.tree.get? place = none ∧ ∃ record owner, t.phase = .deleting record ∧
          ⟨index, record, owner⟩ ∈ c.acceptances ∧ owner ∈ c.reclaimed ∧
          c.host.tree.Reaches c.host.cwd (Path.ofText record.path).text
            (record.strategy = .force) place := by
  constructor
  · intro record hp
    obtain ⟨c', t', log, hstep, -, ht', hgone, -⟩ := hc.finishes ht builtin hp
    exact ⟨c'.work, log, t', hstep, ht', hgone⟩
  · intro w log hstep
    cases hhand : t.phase.inHand? with
    | none =>
        obtain ⟨c', hnext, hwork, hhost⟩ := step_of_advance ht hhand hstep
        refine ⟨⟨_, c', by simp [Action.isWork], hnext, hwork⟩, fun place => .inl ?_⟩
        rw [hhost]
    | some record =>
        have hp : t.phase = .deleting record := by
          cases hphase : t.phase <;> simp_all [Phase.inHand?]
        obtain ⟨c', t', log', hstep', hnext, -, -, hloses⟩ := hc.finishes ht builtin hp
        obtain rfl : c'.work = w := by
          rw [hstep'] at hstep
          exact (Prod.mk.inj (Option.some.inj hstep)).1
        refine ⟨⟨_, c', by simp [Action.isWork], hnext, rfl⟩, fun place => ?_⟩
        obtain ⟨owner, haccepted, howner⟩ := hc.in_hand ht hp
        rcases hloses place with hkept | ⟨hgone, hreaches⟩
        · exact .inl hkept
        · exact .inr ⟨hgone, record, owner, hp, haccepted, howner, hreaches⟩

def filledDirectory : Host :=
  { Host.bare with
    tree := (Tree.empty.put ["d"] .directory).put ["f", "d"] (.file .empty) }

def forcing : List Action :=
  [.addTracker "worker" (some .force), .track 0 (.text "/d/") ⟨7, none⟩ none, .reclaim 7, .advance 0,
    .advance 0]

theorem gone_or_reported_forcing :
    ∃ c t record, (start filledDirectory).perform? forcing = some c ∧
      c.system.tracker? 0 = some t ∧ t.phase = .deleting record ∧ record.path = "/d/" ∧
      c.host.tree.get? ["f", "d"] = some (.file .empty) ∧
      ∃ w log t', c.work.step 0 = some (w, log) ∧ w.system.tracker? 0 = some t' ∧
        (w.host.Vacant record.path ∨ t'.failures = t.failures ++ [record.path]) := by
  have h : (start filledDirectory).perform? forcing = some _ := rfl
  refine ⟨_, _, ⟨0, "/d/", .force⟩, h, rfl, rfl, rfl, by decide, ?_⟩
  have hrun := (Reachable.start filledDirectory).perform h
  exact (gone_or_reported hrun rfl (by decide)).1 _ rfl

end Course
end Reclaim
