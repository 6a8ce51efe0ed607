import Reclaim.Proofs.Tracking.Delivery

/-!
A call that tracks a path, as a series of effects. The path is checked, the tracker is asked
whether it still accepts paths, the owner is watched, the worker is started, the record is
registered and the strategy is named, one after another; an error leaves behind whatever has been
done before it. As long as threads can be had the call answers and does what `System.trackCall` says.
-/

namespace Reclaim

namespace Tracker

def begin (t : Tracker) : Tracker × List Event :=
  if t.phase = .unstarted then ({ t with phase := .testingExit }, [.started]) else (t, [])

def register (t : Tracker) (record : Record) : Tracker :=
  { t with registry := t.registry ++ [record] }

theorem accept_eq (t : Tracker) (record : Record) :
    t.accept record = (t.begin.1.register record, t.begin.2) := by
  unfold accept begin
  split <;> rfl

end Tracker

/-- A call that works on the trackers step by step. -/
abbrev Attempt := ExceptT CallError (StateM System)

namespace Attempt

def enter (index : Nat) : Attempt Tracker := do
  match (← get).tracker? index with
  | none => throw (.refused .noTracker)
  | some t => if t.exiting then throw (.refused .shutdown) else return t

def watch (record : Record) (owner : Owner) (channel : Channel) : Attempt Unit :=
  match owner.unwatchable with
  | some type => throw (.refused (.unwatchable type))
  | none => modify fun s => s.watch record owner.id channel

/-- Starts the worker for a record. Without a thread to be had there is a worker that never works, and
the record is given up, for nobody holds it yet. -/
def start (threads : Bool) (index : Nat) (record : Record) : Attempt (List Event) := do
  match (← get).tracker? index with
  | none => return []
  | some t =>
      if t.phase = .unstarted ∧ threads = false then
        modify fun s => (s.setTracker index { t with phase := .fallen }).forget record.id
        throw .noThread
      else
        modify fun s => s.setTracker index t.begin.1
        return t.begin.2

def register (index : Nat) (record : Record) : Attempt Unit :=
  modify fun s => match s.tracker? index with
    | none => s
    | some t => s.setTracker index (t.register record)

def name : Option String → Attempt Unit
  | none => throw .nameless
  | some _ => return

def track (threads : Bool) (index : Nat) (cwd : Option Path) (path : PathArgument) (owner : Owner)
    (strategy : Option Strategy) : Attempt (List Event) :=
  match path.stored cwd with
  | .error error => throw (.refused (.path error))
  | .ok stored => do
      let t ← enter index
      let record : Record := ⟨(← get).nextRecord, stored, t.strategyFor strategy⟩
      watch record owner (.tracker index)
      let begun ← start threads index record
      register index record
      name (t.labelFor strategy)
      return begun ++ [.tracked record owner.id]

/-- What an attempt answers, and the trackers as it leaves them. -/
def perform (s : System) {α : Type} (attempt : Attempt α) : Except CallError α × System :=
  StateT.run (ExceptT.run attempt) s

variable {s : System} {index : Nat} {t : Tracker}

theorem perform_bind (s : System) {α β : Type} (attempt : Attempt α) (next : α → Attempt β) :
    perform s (attempt >>= next) = match perform s attempt with
      | (.ok a, s) => perform s (next a)
      | (.error error, s) => (.error error, s) := by
  have hbind : perform s (attempt >>= next) =
      StateT.run (ExceptT.bindCont next (perform s attempt).1) (perform s attempt).2 := rfl
  rw [hbind]
  obtain ⟨answer, s'⟩ := perform s attempt
  cases answer <;> rfl

theorem perform_get_bind (s : System) {β : Type} (next : System → Attempt β) :
    perform s (get >>= next) = perform s (next s) :=
  perform_bind s get next

theorem perform_enter (ht : s.tracker? index = some t) :
    perform s (enter index) =
      if t.exiting then (.error (.refused .shutdown), s) else (.ok t, s) := by
  rw [enter, perform_get_bind, ht]
  cases he : t.exiting with
  | true => simp only [he]; rfl
  | false => simp only [he]; rfl

theorem perform_watch (s : System) (record : Record) (owner : Owner) (channel : Channel) :
    perform s (watch record owner channel) = match owner.unwatchable with
      | some type => (.error (.refused (.unwatchable type)), s)
      | none => (.ok (), s.watch record owner.id channel) := by
  unfold watch
  cases owner.unwatchable <;> rfl

theorem perform_start (ht : s.tracker? index = some t) {threads : Bool}
    (starts : threads = true ∨ t.phase ≠ .unstarted) (record : Record) :
    perform s (start threads index record) = (.ok t.begin.2, s.setTracker index t.begin.1) := by
  have hgo : ¬(t.phase = .unstarted ∧ threads = false) := by
    rintro ⟨hp, hno⟩
    simp [hp, hno] at starts
  rw [start, perform_get_bind, ht]
  simp only [if_neg hgo]
  rfl

theorem perform_start_none (ht : s.tracker? index = some t) (hp : t.phase = .unstarted)
    (record : Record) :
    perform s (start false index record) =
      (.error .noThread, (s.setTracker index { t with phase := .fallen }).forget record.id) := by
  rw [start, perform_get_bind, ht]
  simp only [hp, and_self, if_true]
  rfl

theorem perform_register (ht : s.tracker? index = some t) (record : Record) :
    perform s (register index record) =
      (.ok (), s.setTracker index (t.register record)) := by
  have hchange : perform s (register index record) = (.ok (), match s.tracker? index with
      | none => s
      | some t => s.setTracker index (t.register record)) := rfl
  rw [hchange, ht]

theorem setTracker_setTracker (s : System) (index : Nat) (t t' : Tracker) :
    (s.setTracker index t).setTracker index t' = s.setTracker index t' := by
  simp [System.setTracker]

variable {cwd : Option Path} {path : PathArgument} {owner : Owner} {strategy : Option Strategy}

/-- A call that is refused leaves nothing behind. -/
theorem perform_refused (ht : s.tracker? index = some t) {error : TrackError}
    (h : s.track index cwd path owner strategy = .error error) (threads : Bool) :
    perform s (track threads index cwd path owner strategy) = (.error (.refused error), s) := by
  unfold track
  cases hs : path.stored cwd with
  | error pathError =>
      rw [System.track_of_pathError hs] at h
      cases h
      rfl
  | ok stored =>
      simp only [System.track_of_stored hs, System.trackStored, ht] at h
      simp only []
      rw [perform_bind, perform_enter ht]
      cases he : t.exiting with
      | true =>
          simp only [he, if_true] at h
          cases h
          rfl
      | false =>
          simp only [he, Bool.false_eq_true, if_false] at h ⊢
          rw [perform_get_bind, perform_bind, perform_watch]
          cases hu : owner.unwatchable with
          | some type =>
              simp only [hu] at h
              cases h
              rfl
          | none => simp [hu] at h

/-- A call that nothing refuses begins to watch the owner, and then needs the worker. -/
theorem perform_watched (ht : s.tracker? index = some t) {s' : System} {events : List Event}
    (h : s.track index cwd path owner strategy = .ok (s', events)) (threads : Bool) :
    ∃ record : Record, path.stored cwd = .ok record.path ∧ record.id = s.nextRecord ∧
      record.strategy = t.strategyFor strategy ∧
      s' = (s.setTracker index (t.accept record).1).watch record owner.id (.tracker index) ∧
      events = (t.accept record).2 ++ [.tracked record owner.id] ∧
      perform s (track threads index cwd path owner strategy) =
        perform (s.watch record owner.id (.tracker index)) (do
          let begun ← start threads index record
          register index record
          name (t.labelFor strategy)
          return begun ++ [.tracked record owner.id]) := by
  obtain ⟨stored, hs, htracked⟩ := System.track_eq_ok h
  obtain ⟨t₁, ht₁, opened, watchable, hsystem, hevents⟩ := System.trackStored_eq_ok htracked
  obtain rfl : t = t₁ := Option.some.inj (ht.symm.trans ht₁)
  refine ⟨⟨s.nextRecord, stored, t.strategyFor strategy⟩, hs, rfl, rfl, hsystem, hevents, ?_⟩
  unfold track
  simp only [hs]
  rw [perform_bind, perform_enter ht]
  simp only [opened, Bool.false_eq_true, if_false]
  rw [perform_get_bind, perform_bind, perform_watch]
  simp only [watchable]

/-- A call that nothing refuses has done all of its effects, whether or not it can name the
strategy. -/
theorem perform_tracked (ht : s.tracker? index = some t) {s' : System} {events : List Event}
    (h : s.track index cwd path owner strategy = .ok (s', events)) {threads : Bool}
    (starts : threads = true ∨ t.phase ≠ .unstarted) :
    perform s (track threads index cwd path owner strategy) =
      (if (t.labelFor strategy).isSome then .ok events else .error .nameless, s') := by
  obtain ⟨record, -, -, -, rfl, rfl, hperform⟩ := perform_watched ht h threads
  have hwatched : (s.watch record owner.id (.tracker index)).tracker? index = some t := ht
  have hstarted := (System.tracker?_set hwatched t.begin.1 index).trans (if_pos rfl)
  rw [hperform, perform_bind, perform_start hwatched starts]
  simp only []
  rw [perform_bind, perform_register hstarted, setTracker_setTracker, t.accept_eq]
  cases t.labelFor strategy <;> rfl

/-- A call that needs a thread and cannot have one has given up the record and its watch. -/
theorem perform_noThread (ht : s.tracker? index = some t) {s' : System} {events : List Event}
    (h : s.track index cwd path owner strategy = .ok (s', events)) (hp : t.phase = .unstarted)
    (fresh : ∀ w ∈ s.watches, w.record.id ≠ s.nextRecord) :
    perform s (track false index cwd path owner strategy) =
      (.error .noThread, { s.setTracker index { t with phase := .fallen } with
        nextRecord := s.nextRecord + 1 }) := by
  obtain ⟨record, -, hid, -, -, -, hperform⟩ := perform_watched ht h false
  have hwatched : (s.watch record owner.id (.tracker index)).tracker? index = some t := ht
  have hkept : ∀ w ∈ s.watches, w.record.id ≠ record.id := hid ▸ fresh
  rw [hperform, perform_bind, perform_start_none hwatched hp]
  simpa [System.forget, System.watch, System.setTracker] using hkept

/-- As long as threads can be had, the call answers and does what `System.trackCall` says. -/
theorem perform_track (ht : s.tracker? index = some t) (cwd : Option Path) (path : PathArgument)
    (owner : Owner) (strategy : Option Strategy) :
    perform s (track true index cwd path owner strategy) =
      ((s.trackCall index cwd path owner strategy).1.map fun _ =>
          (s.trackCall index cwd path owner strategy).2.2,
        (s.trackCall index cwd path owner strategy).2.1) := by
  cases h : s.track index cwd path owner strategy with
  | error error =>
      rw [perform_refused ht h, System.trackCall_of_refused h]
      rfl
  | ok tracked =>
      have hlabel : s.labelFor index strategy = t.labelFor strategy := by
        simp [System.labelFor, ht]
      rw [perform_tracked ht h (.inl rfl), System.trackCall_of_tracked h, hlabel]
      cases t.labelFor strategy <;> rfl

end Attempt
end Reclaim
