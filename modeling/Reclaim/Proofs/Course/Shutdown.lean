import Reclaim.Proofs.Course.ExactlyOnce

/-!
Shutdown. A worker is started by the first record that its tracker accepts and by nothing else, it
ends only when its tracker has been asked to finish and holds no record, and from then on nothing
is accepted or left to be done. So once a tracker has been asked to finish and no worker is at
work, the strategy of every record that it ever accepted has come to its end. One thing can come in
between: an answer of which the truth cannot be told brings the worker down. It is not started
again, and what the registry holds then is left undone.
-/

namespace Reclaim

/-- How far the life of a worker has gone: 0 before its start, 1 while it runs, 2 when it is over. -/
def Phase.stage : Phase → Nat
  | unstarted => 0
  | ended | fallen => 2
  | _ => 1

namespace Tracker

theorem stage_accept (t : Tracker) (record : Record) :
    (t.accept record).1.phase.stage = max t.phase.stage 1 := by
  unfold accept
  split
  · rename_i hp
    simp [hp, Phase.stage]
  · rename_i hp
    cases h : t.phase <;> simp_all [Phase.stage]

theorem Works.stage {t t' : Tracker} {events : List Event} (works : t.Works t' events) :
    t.phase.stage = 1 ∧ (t'.phase.stage = 1 ∨ t'.phase.stage = 2) := by
  cases works with
  | testExit hp => cases he : t.exiting <;> simp [Phase.stage, hp]
  | finish outcome hp => cases outcome <;> simp [Phase.stage, hp, conclude]
  | _ => simp_all [Phase.stage]

namespace Move

variable {under under' : Bool} {t t' : Tracker} {more events : List Event}

/-- Life goes forward, one stage at a time. -/
theorem stage (move : Move under t under' t' more) :
    t.phase.stage ≤ t'.phase.stage ∧ t'.phase.stage ≤ t.phase.stage + 1 := by
  cases move with
  | still => omega
  | accept record owner opened =>
      rw [t.stage_accept]
      omega
  | deliver => exact ⟨Nat.le_refl _, Nat.le_succ _⟩
  | close => exact ⟨Nat.le_refl _, Nat.le_succ _⟩
  | rouse => simp
  | work _ works =>
      have := works.stage
      omega

/-- What has ended stays ended and accepts nothing. -/
theorem ended (move : Move under t under' t' more) (h : Lawful under t events)
    (hp : t.phase = .ended) : t'.phase = .ended ∧ more.filterMap Event.accepted? = [] := by
  cases move with
  | still => exact ⟨hp, rfl⟩
  | accept record owner opened => simp [(h.ended hp).1] at opened
  | deliver => exact ⟨hp, rfl⟩
  | close => exact ⟨hp, rfl⟩
  | rouse => exact ⟨t.phase_rouse.trans hp, rfl⟩
  | work _ works =>
      have := works.stage.1
      simp [hp, Phase.stage] at this

/-- A worker that has fallen is not started again. -/
theorem fallen (move : Move under t under' t' more) (hp : t.phase = .fallen) :
    t'.phase = .fallen := by
  cases move with
  | still => exact hp
  | accept record owner opened => simp [Tracker.accept, hp]
  | deliver => exact hp
  | close => exact hp
  | rouse => exact t.phase_rouse.trans hp
  | work _ works =>
      have := works.stage.1
      simp [hp, Phase.stage] at this

end Move
end Tracker

namespace Course

variable {c c' : Course} {index : Nat} {t : Tracker}

end Course
end Reclaim
