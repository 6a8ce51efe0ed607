import Reclaim.Proofs.Course.Lifecycle

/-!
A tracker with settings. The name of its strategy is looked up without regard to letter case, while
the settings know only the exact names; so a tracker can always be made, and what it deletes with by
default is the strategy that the settings name. Nothing that happens later changes this default, and
every path that is tracked without a strategy gets it.
-/

namespace Reclaim

theorem Builtin.named?_name (b : Builtin) : named? b.name = some b := by
  cases b <;> rfl

namespace Tracker

theorem ofConfig_eq (config : Config) :
    ofConfig config = .ok (.new config.threadName config.defaultStrategy.strategy) := by
  simp only [ofConfig, Builtin.named?_name]

theorem defaultStrategy_accept (t : Tracker) (record : Record) :
    (t.accept record).1.defaultStrategy = t.defaultStrategy := by
  unfold accept
  split <;> rfl

theorem defaultStrategy_rouse (t : Tracker) : t.rouse.defaultStrategy = t.defaultStrategy := by
  unfold rouse
  split <;> rfl

theorem Works.defaultStrategy {t t' : Tracker} {events : List Event} (h : t.Works t' events) :
    t'.defaultStrategy = t.defaultStrategy := by
  cases h <;> rfl

theorem Move.defaultStrategy {under under' : Bool} {t t' : Tracker} {events : List Event}
    (h : Move under t under' t' events) : t'.defaultStrategy = t.defaultStrategy := by
  cases h with
  | still => rfl
  | accept record owner opened => exact defaultStrategy_accept t record
  | deliver => rfl
  | close => rfl
  | rouse => exact defaultStrategy_rouse t
  | work under works => exact works.defaultStrategy

end Tracker

/-- A path that is tracked without a strategy is deleted with the default of its tracker. -/
theorem System.strategy_of_track {s s' : System} {index : Nat} {t : Tracker} {cwd : Option Path}
    {path : PathArgument} {owner : Owner} {events : List Event}
    (ht : s.tracker? index = some t) (h : s.track index cwd path owner none = .ok (s', events)) :
    ∃ record, s'.watches = ⟨record, owner.id, .tracker index⟩ :: s.watches ∧
      .tracked record owner.id ∈ events ∧ record.strategy = t.strategyFor none := by
  unfold track at h
  split at h
  · cases h
  · unfold trackStored at h
    rw [ht] at h
    simp only at h
    split at h
    · cases h
    · split at h
      · cases h
      · cases h
        exact ⟨_, rfl, by simp, rfl⟩

namespace Course

variable {c c' : Course} {index : Nat} {t : Tracker} {actions : List Action}

theorem Reachable.defaultStrategy (hc : c.Reachable) (ht : c.system.tracker? index = some t)
    (h : c.perform? actions = some c') :
    ∃ t', c'.system.tracker? index = some t' ∧ t'.defaultStrategy = t.defaultStrategy := by
  refine perform?_induct (P := fun c' => ∃ t', c'.system.tracker? index = some t' ∧
    t'.defaultStrategy = t.defaultStrategy) ?_ hc ⟨t, ht, rfl⟩ h
  rintro c₁ c₂ - ⟨t₁, ht₁, hsame⟩ hch
  obtain ⟨t₂, more, ht₂, -, hmove⟩ := move_of_change hch ht₁
  exact ⟨t₂, ht₂, hmove.defaultStrategy.trans hsame⟩

/-- Whenever a tracker is made and whatever happens then, each call that has it track a path without
a strategy watches the owner for a record with the given one. -/
def Defaults (t : Tracker) (strategy : Strategy) : Prop :=
  ∀ (c c' : Course) (actions : List Action), c.Reachable →
    c.perform? (.addTracker t.threadName t.defaultStrategy :: actions) = some c' →
    ∀ cwd path owner system events,
      c'.system.track c.system.trackers.length cwd path owner none = .ok (system, events) →
      ∃ record, system.watches =
          ⟨record, owner.id, .tracker c.system.trackers.length⟩ :: c'.system.watches ∧
        .tracked record owner.id ∈ events ∧ record.strategy = strategy

theorem defaults_of_defaultStrategy {strategy : Strategy}
    (given : t.defaultStrategy = some strategy) : Defaults t strategy := by
  intro c c' actions hc h cwd path owner system events htrack
  let made : Course := { c with
    system := c.system.addTracker (.new t.threadName t.defaultStrategy) }
  have hmade : c.next? (.addTracker t.threadName t.defaultStrategy) = some made := rfl
  have hnew : made.system.tracker? c.system.trackers.length =
      some (.new t.threadName t.defaultStrategy) := by
    simp [made, System.addTracker, System.tracker?]
  have hrest : made.perform? actions = some c' := h
  obtain ⟨t', ht', hsame⟩ := (hc.step _ hmade).defaultStrategy hnew hrest
  obtain ⟨record, hwatches, hevent, hstrategy⟩ := System.strategy_of_track ht' htrack
  have hchosen : t'.strategyFor none = strategy := by
    have hdefault : t'.defaultStrategy = some strategy := hsame.trans given
    simp [Tracker.strategyFor, Tracker.chosen, hdefault]
  exact ⟨record, hwatches, hevent, hstrategy.trans hchosen⟩

end Course
end Reclaim
