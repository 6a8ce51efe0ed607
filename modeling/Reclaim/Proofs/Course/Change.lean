import Reclaim.Proofs.Course.Basic
import Reclaim.Proofs.Tracking.Delivery

/-!
What one action can do. A worker's own moves are listed in `Tracker.Works`, everything that can
happen to a course in `Change`; `change_of_next?` says that the list is complete. Invariants are
proved by cases on these two and never look at `next?` again.
-/

namespace Reclaim

/-- The moves of a worker: what it does to its tracker, and the events. -/
inductive Tracker.Works (t : Tracker) : Tracker → List Event → Prop
  | testExit (h : t.phase = .testingExit) :
      Works t { t with phase := if t.exiting then .testingCount else .receiving } []
  | stop (h : t.phase = .testingCount) (empty : t.registry = []) :
      Works t { t with phase := .ended } [.ended]
  | goOn (h : t.phase = .testingCount) (more : t.registry ≠ []) :
      Works t { t with phase := .receiving } []
  | awake {queue : List Item} (h : t.phase = .receiving) (next : t.queue = .wake :: queue) :
      Works t { t with queue := queue, phase := .testingExit } []
  | take {r : Record} {queue : List Item} (h : t.phase = .receiving)
      (next : t.queue = .record r :: queue) :
      Works t { t with
        queue := queue, registry := withdraw t.registry r, phase := .deleting r } [.taken r]
  | finish {r : Record} (outcome : Outcome) (h : t.phase = .deleting r) :
      Works t (t.conclude r outcome) [.finished r outcome]

namespace Tracker

@[simp] theorem phase_rouse (t : Tracker) : t.rouse.phase = t.phase := by
  unfold rouse
  split <;> rfl

@[simp] theorem registry_rouse (t : Tracker) : t.rouse.registry = t.registry := by
  unfold rouse
  split <;> rfl

@[simp] theorem exiting_rouse (t : Tracker) : t.rouse.exiting = t.exiting := by
  unfold rouse
  split <;> rfl

theorem works_of_advance {t t' : Tracker} {events : List Event}
    (h : t.advance = some (t', events)) : t.Works t' events := by
  unfold advance at h
  split at h
  · rename_i hp
    cases h
    exact .testExit hp
  · rename_i hp
    split at h
    · rename_i hr
      cases h
      exact .stop hp hr
    · rename_i hr
      cases h
      exact .goOn hp hr
  · rename_i hp
    split at h
    · cases h
    · rename_i hq
      cases h
      exact .awake hp hq
    · rename_i hq
      cases h
      exact .take hp hq
  · cases h

end Tracker

theorem Work.phase_of_inHand {w : Work} {index : Nat} {record : Record}
    (h : w.inHand? index = some record) :
    ∃ t, w.system.tracker? index = some t ∧ t.phase = .deleting record := by
  unfold inHand? at h
  split at h
  · rename_i t ht
    split at h
    · rename_i hp
      cases h
      exact ⟨t, ht, hp⟩
    · cases h
  · cases h

theorem Work.inHand?_of_phase {w : Work} {index : Nat} {t : Tracker} {record : Record}
    (ht : w.system.tracker? index = some t) (hp : t.phase = .deleting record) :
    w.inHand? index = some record := by
  simp only [inHand?, ht, hp]

namespace Course

/-- What can become of a course by one action. -/
inductive Change (c : Course) : Course → Prop
  | quiet (host : Host) : Change c { c with host }
  | added (threadName : String) (strategy : Option Strategy) :
      Change c { c with system := c.system.addTracker (.new threadName strategy) }
  | accepted {index owner : Nat} {t : Tracker} {record : Record} (host : Host)
      (found : c.system.tracker? index = some t) (opened : t.exiting = false)
      (free : index ∉ c.closing) (fresh : record.id = c.system.nextRecord)
      (alive : owner ∉ c.reclaimed) :
      Change c { c.note index
        ((c.system.setTracker index (t.accept record).1).watch record owner (.tracker index))
        ((t.accept record).2 ++ [.tracked record owner]) with host }
  | reclaimed (owner : Nat) :
      Change c { c with
        system := c.system.reclaim owner, reclaimed := owner :: c.reclaimed }
  | closed {index : Nat} {t : Tracker} (found : c.system.tracker? index = some t)
      (opened : t.exiting = false) (free : index ∉ c.closing) :
      Change c { c with
        system := c.system.setTracker index t.close, closing := index :: c.closing }
  | roused {index : Nat} {t : Tracker} (found : c.system.tracker? index = some t)
      (under : index ∈ c.closing) :
      Change c { c.note index (c.system.setTracker index t.rouse) [.exitRequested t.count] with
        closing := c.closing.filter (· ≠ index) }
  | worked {index : Nat} {t t' : Tracker} {events : List Event} (host : Host)
      (notes : List String) (found : c.system.tracker? index = some t)
      (works : t.Works t' events) :
      Change c { c.note index (c.system.setTracker index t') events with host, notes }

theorem change_self (c : Course) : c.Change c := .quiet c.host

theorem mem_free_of_admits {c : Course} {index : Nat} {owner : Owner}
    (h : c.admits index owner = true) : index ∉ c.closing ∧ owner.id ∉ c.reclaimed := by
  simpa [admits] using h

theorem note_nil (c : Course) (index : Nat) : c.note index c.system [] = c := by
  simp [note]

def answered (c : Course) (index : Nat) : Except TrackError (System × List Event) → Course
  | .ok (system, events) => c.note index system events
  | .error _ => c

theorem change_of_track {c : Course} {index : Nat} {owner : Owner}
    (hadm : c.admits index owner = true) (cwd : Option Path) (path : PathArgument)
    (strategy : Option Strategy) (host : Host) :
    c.Change { c.answered index (c.system.track index cwd path owner strategy) with host } := by
  cases htrack : c.system.track index cwd path owner strategy with
  | error error => exact .quiet host
  | ok tracked =>
      obtain ⟨stored, -, hst⟩ := System.track_eq_ok htrack
      obtain ⟨t, ht, he, -, hsystem, hevents⟩ := System.trackStored_eq_ok hst
      obtain ⟨hfree, halive⟩ := mem_free_of_admits hadm
      rw [answered, hsystem, hevents]
      exact .accepted host ht he hfree rfl halive

theorem next?_track (c : Course) (index : Nat) (path : PathArgument) (owner : Owner)
    (strategy : Option Strategy) :
    c.next? (.track index path owner strategy) = if c.admits index owner then
      some (c.answered index (c.system.track index c.host.currentDirectory? path owner strategy))
      else none := by
  rw [next?]
  split
  · cases c.system.track index c.host.currentDirectory? path owner strategy <;> rfl
  · rfl

theorem next?_trackMade (c : Course) (index : Nat) (kind : TemporaryKind) (text : String)
    (owner : Owner) (strategy : Option Strategy) :
    c.next? (.trackMade index kind text owner strategy) = if c.admits index owner then
      some { c.answered index
          (c.system.track index c.host.currentDirectory? (.text text) owner strategy) with
        host := (c.system.trackMade index kind text owner strategy c.host).2.2 }
      else none := by
  rw [next?]
  split
  · have hsystem := c.system.trackMade_tracked index kind text owner strategy c.host
    cases hmade : c.system.trackMade index kind text owner strategy c.host with
    | mk answer left =>
        obtain ⟨⟨system, events⟩, host⟩ := left
        rw [hmade] at hsystem
        cases htrack : c.system.track index c.host.currentDirectory? (.text text) owner strategy with
        | ok tracked =>
            rw [System.trackCall_of_tracked htrack] at hsystem
            obtain rfl : (system, events) = tracked := hsystem
            rfl
        | error error =>
            rw [System.trackCall_of_refused htrack] at hsystem
            obtain ⟨rfl, rfl⟩ := Prod.mk.inj hsystem
            simp only [note_nil, answered]
  · rfl

/-- The end of the strategy of the record in hand, which has been asked before. -/
theorem finishes_of_next? {c c' : Course} {index : Nat} {run : QuietRun}
    (h : c.next? (.finish index run) = some c') :
    ∃ record outcome t, c.system.tracker? index = some t ∧ t.phase = .deleting record ∧
      run.invoked = [record.invocation] ∧ run.outcome = some outcome ∧
      c' = { c.note index (c.system.setTracker index (t.conclude record outcome))
          [.finished record outcome] with
        host := run.host, notes := c.notes ++ run.noted.toList } := by
  simp only [next?] at h
  cases hhand : c.work.inHand? index with
  | none => simp [hhand] at h
  | some record =>
      obtain ⟨t, ht, hp⟩ := Work.phase_of_inHand hhand
      have ht : c.system.tracker? index = some t := ht
      simp only [hhand, conclude?, Record.invoked_deleteQuietly] at h
      split at h
      · rename_i hinvoked
        cases ho : run.outcome with
        | none => simp [ho] at h
        | some outcome =>
            simp only [ho, System.finish, ht, Tracker.finish, hp, Option.map_some,
              Option.some.injEq] at h
            exact ⟨record, outcome, t, ht, hp, hinvoked, rfl, h.symm⟩
      · cases h

theorem next?_finish {c : Course} {index : Nat} {t : Tracker} {record : Record} {run : QuietRun}
    {outcome : Outcome} (ht : c.system.tracker? index = some t) (hp : t.phase = .deleting record)
    (invoked : run.invoked = [record.invocation]) (ho : run.outcome = some outcome) :
    c.next? (.finish index run) =
      some { c.note index (c.system.setTracker index (t.conclude record outcome))
          [.finished record outcome] with
        host := run.host, notes := c.notes ++ run.noted.toList } := by
  have hhand : c.work.inHand? index = some record := Work.inHand?_of_phase ht hp
  simp [next?, hhand, conclude?, invoked, ho, System.finish, ht, Tracker.finish, hp]

theorem change_of_next? {c c' : Course} {action : Action} (h : c.next? action = some c') :
    c.Change c' := by
  cases action with
  | addTracker threadName strategy =>
      cases h
      exact .added threadName strategy
  | track index path owner strategy =>
      rw [next?_track] at h
      split at h
      · rename_i hadm
        cases h
        exact change_of_track hadm c.host.currentDirectory? path strategy (Course.host _)
      · cases h
  | makeTemporary index kind name =>
      cases h
      exact .quiet _
  | trackMade index kind text owner strategy =>
      rw [next?_trackMade] at h
      split at h
      · rename_i hadm
        cases h
        exact change_of_track hadm c.host.currentDirectory? (.text text) strategy _
      · cases h
  | reclaim owner =>
      cases h
      exact .reclaimed owner
  | beginExit index =>
      simp only [next?] at h
      split at h
      · cases h
      · rename_i hfree
        split at h
        · cases h
          exact c.change_self
        · rename_i t ht
          split at h
          · cases h
            exact c.change_self
          · rename_i he
            cases h
            exact .closed ht (by simpa using he) hfree
  | endExit index =>
      simp only [next?] at h
      split at h
      · rename_i hunder
        split at h
        · cases h
        · rename_i t ht
          cases h
          exact .roused ht hunder
      · cases h
  | advance index =>
      simp only [next?, System.advance] at h
      cases ht : c.system.tracker? index with
      | none => simp [ht] at h
      | some t =>
          cases hadv : t.advance with
          | none => simp [ht, hadv] at h
          | some moved =>
              simp only [ht, hadv, Option.map_some, Option.some.injEq] at h
              subst h
              exact .worked c.host c.notes ht (Tracker.works_of_advance hadv)
  | finish index run =>
      obtain ⟨record, outcome, t, ht, hp, -, -, rfl⟩ := finishes_of_next? h
      exact .worked run.host _ ht (.finish outcome hp)
  | elsewhere host =>
      cases h
      exact .quiet host

/-- Reachable courses are closed under changes, so what every change keeps holds of them all. -/
theorem Reachable.induct {P : Course → Prop} (start : ∀ host, P (Course.start host))
    (step : ∀ {c c' : Course}, c.Reachable → P c → c.Change c' → P c') {c : Course}
    (hc : c.Reachable) : P c := by
  induction hc with
  | start host => exact start host
  | step action hc h ih => exact step hc ih (change_of_next? h)

/-- What every change keeps is kept along an order of actions. -/
theorem perform?_induct {P : Course → Prop}
    (step : ∀ {c c' : Course}, c.Reachable → P c → c.Change c' → P c') {c c' : Course}
    {actions : List Action} (hc : c.Reachable) (hP : P c)
    (h : c.perform? actions = some c') : P c' := by
  induction actions generalizing c with
  | nil =>
      simp only [perform?, Option.some.injEq] at h
      exact h ▸ hP
  | cons action rest ih =>
      simp only [perform?] at h
      split at h
      · cases h
      · rename_i c₁ h₁
        exact ih (hc.step action h₁) (step hc hP (change_of_next? h₁)) h

end Course
end Reclaim
