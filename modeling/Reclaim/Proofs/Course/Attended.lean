import Reclaim.Proofs.Course.Aim
import Reclaim.Proofs.Deletion.Sweep

/-!
Calls that are attended to. Callers track paths and let owners end, one call after another, while
the worker of one tracker goes on whenever it likes; its strategies do what they are for, and nothing
else happens. However calls and steps of the worker alternate, the files are left as by a sweep over
the records whose strategies have ended, and the worker catches up once the calls have been made.
-/

namespace Reclaim

/-- Whether an action tracks a path or is the end of an owner. -/
def Action.isCall : Action → Bool
  | track .. | reclaim _ => true
  | _ => false

namespace Tracker

theorem Works.exiting {t t' : Tracker} {events : List Event} (works : t.Works t' events) :
    t'.exiting = t.exiting := by
  cases works <;> rfl

theorem Works.endings {t t' : Tracker} {events : List Event} (works : t.Works t' events)
    (hp : t.phase.inHand? = none) : events.filterMap Event.ending? = [] := by
  cases works with
  | finish outcome h =>
      rw [h] at hp
      cases hp
  | _ => rfl

end Tracker

namespace Course

variable {c c₁ c' : Course} {index : Nat} {t : Tracker} {calls more : List Action}

/-- Strategies do what they are for. -/
def Conduct.proper : Conduct where
  run host record := record.deleteQuietly host
  invoked host record := record.invoked_deleteQuietly host

def attend? (c : Course) (index : Nat) : Option Course :=
  c.workNext? .proper index

/-- Calls are made in order while the worker of a tracker goes on whenever it likes. -/
inductive Attended (index : Nat) : Course → List Action → Course → Prop
  | rest (c : Course) : Attended index c [] c
  | call {c c₁ c' : Course} {action : Action} {calls : List Action}
      (plain : action.isCall = true) (h : c.next? action = some c₁)
      (rest : Attended index c₁ calls c') : Attended index c (action :: calls) c'
  | work {c c₁ c' : Course} {calls : List Action} (h : c.attend? index = some c₁)
      (rest : Attended index c₁ calls c') : Attended index c calls c'

theorem endingsAt_note (c : Course) (index : Nat) (s : System) (events : List Event) (j : Nat) :
    (c.note index s events).endingsAt j =
      c.endingsAt j ++ if index = j then events.filterMap Event.ending? else [] := by
  rw [endingsAt, eventsAt_note, List.filterMap_append, ← endingsAt]
  split <;> rfl

/-- What a step of the worker leads to: it makes one of its moves, and the files are left as by the
end of the strategy that it ends, if it ends one. -/
structure Attends (c : Course) (index : Nat) (t : Tracker) (c' : Course) (t' : Tracker)
    (done : List (Record × Outcome)) : Prop where
  found : c.system.tracker? index = some t
  left : c'.system.tracker? index = some t'
  works : ∃ events, t.Works t' events
  acceptances : c'.acceptances = c.acceptances
  reclaimed : c'.reclaimed = c.reclaimed
  closing : c'.closing = c.closing
  endings : c'.endingsAt index = c.endingsAt index ++ done
  sweeps : Sweeps c.host done c'.host

theorem attends_of_works {t' : Tracker} {events : List Event} {host : Host} {notes : List String}
    (ht : c.system.tracker? index = some t) (works : t.Works t' events)
    (sweeps : Sweeps c.host (events.filterMap Event.ending?) host) :
    c.Attends index t { c.note index (c.system.setTracker index t') events with host, notes } t'
      (events.filterMap Event.ending?) where
  found := ht
  left := (System.tracker?_set ht t' index).trans (if_pos rfl)
  works := ⟨events, works⟩
  acceptances := by
    have h := c.acceptances_note index (c.system.setTracker index t') events
    rw [works.acceptances, List.append_nil] at h
    exact h
  reclaimed := rfl
  closing := rfl
  endings := by
    have h := c.endingsAt_note index (c.system.setTracker index t') events index
    rw [if_pos rfl] at h
    exact h
  sweeps := sweeps

theorem attends_of_attend? (h : c.attend? index = some c') :
    ∃ t t' done, c.Attends index t c' t' done := by
  unfold attend? workNext? at h
  split at h
  · rename_i record hhand
    obtain ⟨r, outcome, t, ht, hp, -, ho, rfl⟩ := finishes_of_next? h
    obtain rfl : record = r := Option.some.inj (hhand.symm.trans (Work.inHand?_of_phase ht hp))
    exact ⟨t, _, _, attends_of_works ht (.finish outcome hp) (.next ho (.done _))⟩
  · rename_i hhand
    simp only [next?, System.advance] at h
    cases ht : c.system.tracker? index with
    | none => simp [ht] at h
    | some t =>
        cases hadvance : t.advance with
        | none => simp [ht, hadvance] at h
        | some moved =>
            simp only [ht, hadvance, Option.map_some, Option.some.injEq] at h
            subst h
            have works := Tracker.works_of_advance hadvance
            have hp : t.phase.inHand? = none := by
              cases hphase : t.phase <;>
                simp [Work.inHand?, work, ht, hphase, Phase.inHand?] at hhand ⊢
            exact ⟨t, moved.1, _, attends_of_works ht works (works.endings hp ▸ .done c.host)⟩

theorem next?_of_isCall {action : Action} (plain : action.isCall = true)
    (h : c.next? action = some c') (j : Nat) :
    c'.host = c.host ∧ c'.endingsAt j = c.endingsAt j := by
  cases action with
  | track i path owner strategy =>
      rw [next?_track] at h
      split at h
      · cases h
        cases htrack : c.system.track i c.host.currentDirectory? path owner strategy with
        | error error => exact ⟨rfl, rfl⟩
        | ok tracked =>
            obtain ⟨stored, -, hstored⟩ := System.track_eq_ok htrack
            obtain ⟨t, -, -, -, -, hevents⟩ := System.trackStored_eq_ok hstored
            refine ⟨rfl, ?_⟩
            rw [answered, endingsAt_note, hevents, List.filterMap_append,
              (t.failures_accept _).2]
            split <;> exact List.append_nil _
      · cases h
  | reclaim owner =>
      cases h
      exact ⟨rfl, rfl⟩
  | _ => cases plain

theorem exists_of_attend? (h : c.attend? index = some c') :
    ∃ action, c.next? action = some c' := by
  obtain ⟨action, -, hnext⟩ := exists_of_workNext? h
  exact ⟨action, hnext⟩

namespace Attended

theorem reachable (h : c.Attended index calls c') (hc : c.Reachable) : c'.Reachable := by
  induction h with
  | rest => exact hc
  | call plain hnext rest ih => exact ih (hc.step _ hnext)
  | work hwork rest ih =>
      obtain ⟨action, hnext⟩ := exists_of_attend? hwork
      exact ih (hc.step action hnext)

theorem append (h : c.Attended index calls c₁) (h' : c₁.Attended index more c') :
    c.Attended index (calls ++ more) c' := by
  induction h with
  | rest => exact h'
  | call plain hnext rest ih => exact .call plain hnext (ih h')
  | work hwork rest ih => exact .work hwork (ih h')

theorem split (h : c.Attended index (calls ++ more) c') :
    ∃ c₁, c.Attended index calls c₁ ∧ c₁.Attended index more c' := by
  generalize hall : calls ++ more = all at h
  induction h generalizing calls with
  | rest c =>
      obtain ⟨rfl, rfl⟩ := List.append_eq_nil_iff.mp hall
      exact ⟨c, .rest c, .rest c⟩
  | @call c c₂ c' action rest plain hnext hrest ih =>
      cases calls with
      | nil =>
          obtain rfl : more = action :: rest := hall
          exact ⟨c, .rest c, .call plain hnext hrest⟩
      | cons first calls =>
          obtain ⟨rfl, hrest⟩ := List.cons.inj hall
          obtain ⟨c₁, h₁, h₂⟩ := ih hrest
          exact ⟨c₁, .call plain hnext h₁, h₂⟩
  | work hwork rest ih =>
      obtain ⟨c₁, h₁, h₂⟩ := ih hall
      exact ⟨c₁, .work hwork h₁, h₂⟩

/-- The files are left as by a sweep over the records whose strategies have ended since. -/
theorem sweeps (h : c.Attended index calls c') :
    ∃ done, c'.endingsAt index = c.endingsAt index ++ done ∧ Sweeps c.host done c'.host := by
  induction h with
  | rest c => exact ⟨[], (List.append_nil _).symm, .done c.host⟩
  | call plain hnext rest ih =>
      obtain ⟨done, hendings, hsweeps⟩ := ih
      obtain ⟨hhost, hsame⟩ := next?_of_isCall plain hnext index
      exact ⟨done, hsame ▸ hendings, hhost ▸ hsweeps⟩
  | work hwork rest ih =>
      obtain ⟨done, hendings, hsweeps⟩ := ih
      obtain ⟨t, t', ended, attends⟩ := attends_of_attend? hwork
      refine ⟨ended ++ done, ?_, attends.sweeps.append hsweeps⟩
      rw [hendings, attends.endings, List.append_assoc]

end Attended
end Course
end Reclaim
