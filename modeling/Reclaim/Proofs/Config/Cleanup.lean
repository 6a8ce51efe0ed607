import Reclaim.Proofs.Config.FailedSave

/-!
Cleaning up after a save that was stopped. The temporary file is looked for and removed, and both
calls can meet faults of their own. Without such a fault the failure that stopped the save is
reported, and nothing temporary is left. With one the error of the cleaning up takes its place,
which is no error of the settings, and the temporary file stays. In either case all that was there
before is as it was.
-/

namespace Reclaim

open Files

namespace Host

variable {host : Host} {text : String} {error : OsError}

/-- The error that cleaning up meets: in the test for the temporary file, or else in its removal. -/
def cleanUpFault? (host : Host) (temporary : Option String) : Option OsError :=
  temporary.bind fun text => (host.fault? .presence text).or (host.fault? .unlink text)

theorem present_of_fault (h : host.fault? .presence text = some error) :
    host.present text = .error error := by
  rw [present, query, h]

theorem unlink_of_fault (h : host.fault? .unlink text = some error) :
    host.unlink text = .error (.os error) := by
  rw [unlink, guarded, h]

end Host

namespace Config

variable {config : Config} {path : Path} {host left : Host} {failure : Failure}
  {temporary : Option String} {error : OsError}

/-- The call that stops a save, with its failure, the temporary file that is there by then, if there
is one, and the host as the call leaves it. -/
inductive Stops (config : Config) (path : Path) (host : Host) :
    Failure → Option String → Host → Prop
  | directories {failure : Failure} {left : Host}
      (h : host.ensureDirectories path.parent = (.error failure, left)) :
      Stops config path host failure none left
  | temporary {failure : Failure} {host₁ left : Host}
      (hensure : host.ensureDirectories path.parent = (.ok (), host₁))
      (h : host₁.makeTemporary .file (temporaryName path) = (.error failure, left)) :
      Stops config path host failure none left
  | move {failure : Failure} {host₁ host₂ left : Host} {text : String}
      (hensure : host.ensureDirectories path.parent = (.ok (), host₁))
      (hmake : host₁.makeTemporary .file (temporaryName path) = (.ok text, host₂))
      (hwrite : host₂.write text config.text.toUTF8 = .ok left)
      (h : left.replace text path.text = .error failure) :
      Stops config path host failure (some text) left

/-- What is left when the cleaning up goes wrong, too: directories around the path, and the
temporary file with the settings. -/
structure Litters (config : Config) (path : Path) (host : Host) (text : String) (left : Host) :
    Prop where
  rest : left = { host with tree := left.tree, nextName := left.nextName }
  added : ∃ around place, host.Furnishes path.parent { host with tree := around } ∧
    around.Makes host.cwd text (.file config.text.toUTF8) place left.tree

namespace Stops

/-- A save that is stopped cleans up. -/
theorem save_eq (stops : config.Stops path host failure temporary left) :
    config.save path host = saveFailed temporary failure left := by
  cases stops with
  | directories h => simp only [save, h]
  | temporary hensure h =>
      rw [temporaryName] at h
      simp only [save, hensure, h]
  | move hensure hmake hwrite h =>
      rw [temporaryName] at hmake
      simp only [save, hensure, hmake, hwrite, h]

theorem exists_error (stops : config.Stops path host failure temporary left) :
    ∃ error host', config.save path host = (.error error, host') := by
  cases hsave : config.save path host with
  | mk answer host' =>
    cases answer with
    | error error => exact ⟨error, host', rfl⟩
    | ok _ =>
        rw [stops.save_eq] at hsave
        exact absurd (congrArg Prod.fst hsave) (saveFailed_ne_ok temporary failure left)

theorem breaks (stops : config.Stops path host (.os error) temporary left) :
    config.Breaks path host error := by
  cases stops with
  | directories h => exact .directories h
  | temporary hensure h => exact .temporary hensure h
  | move hensure hmake hwrite h => exact .move hensure hmake hwrite h

/-- Cleaning up meets no fault if it meets none for the temporary file that is there. -/
theorem tidies (stops : config.Stops path host failure temporary left)
    (hfault : host.cleanUpFault? temporary = none) : Tidies path host := by
  intro host₁ host₂ text hensure hmake
  cases stops with
  | directories h =>
      rw [hensure] at h
      cases h
  | temporary hensure' h =>
      obtain ⟨-, rfl⟩ := Prod.mk.inj (hensure.symm.trans hensure')
      rw [hmake] at h
      cases h
  | move hensure' hmake' hwrite h =>
      obtain ⟨-, rfl⟩ := Prod.mk.inj (hensure.symm.trans hensure')
      rw [hmake] at hmake'
      cases hmake'
      exact Option.or_eq_none_iff.mp hfault

theorem litters (settled : host.Settled) {text : String}
    (stops : config.Stops path host failure (some text) left) :
    config.Litters path host text left := by
  cases stops with
  | @move host₁ _ _ _ hensure hmake hwrite h =>
      have furnishes := Host.furnishes_of_ensureDirectories settled hensure
      obtain ⟨around, rfl⟩ : ∃ around, host₁ = { host with tree := around } :=
        ⟨_, furnishes.rest⟩
      obtain ⟨next, tree, place, rfl, makes⟩ :=
        Host.makes_of_write (furnishes.settled settled) hmake hwrite
      exact ⟨rfl, around, place, furnishes, makes⟩

theorem within (settled : host.Settled) (stops : config.Stops path host failure temporary left) :
    host.tree.Within left.tree := by
  cases stops with
  | directories h => exact (Host.furnishes_of_ensureDirectories settled h).within
  | temporary hensure h =>
      rw [Host.makeTemporary_eq_error h]
      exact (Host.furnishes_of_ensureDirectories settled hensure).within
  | move hensure hmake hwrite h =>
      have stops : config.Stops path host _ _ left := .move hensure hmake hwrite h
      obtain ⟨around, place, furnishes, makes⟩ := (stops.litters settled).added
      exact furnishes.within.trans makes.within

theorem present (settled : host.Settled) {text : String}
    (stops : config.Stops path host failure (some text) left)
    (hfault : host.fault? .presence text = none) : left.present text = .ok true := by
  cases stops with
  | @move host₁ _ _ _ hensure hmake hwrite h =>
      have furnishes := Host.furnishes_of_ensureDirectories settled hensure
      obtain ⟨around, rfl⟩ : ∃ around, host₁ = { host with tree := around } :=
        ⟨_, furnishes.rest⟩
      obtain ⟨written, hwritten, hpresent, -⟩ :=
        Host.write_of_makeTemporary (furnishes.settled settled) hmake config.text.toUTF8
      obtain rfl : left = written := Except.ok.inj (hwrite.symm.trans hwritten)
      exact hpresent hfault

/-- Cleaning up that meets a fault ends with it, and the temporary file stays. -/
theorem cleanUp_of_fault (settled : host.Settled) {fault : OsError}
    (stops : config.Stops path host (.os error) temporary left)
    (hfault : host.cleanUpFault? temporary = some fault) :
    cleanUp temporary error left = (.uninspected fault, left) := by
  cases temporary with
  | none => cases hfault
  | some text =>
      have hsame : ∀ call, left.fault? call text = host.fault? call text := by
        intro call
        rw [(stops.litters settled).rest]
        rfl
      rcases Option.or_eq_some_iff.mp hfault with hpresence | ⟨hpresence, hunlink⟩
      · rw [← hsame] at hpresence
        simp only [cleanUp, Host.present_of_fault hpresence]
      · rw [← hsame] at hunlink
        simp only [cleanUp, stops.present settled hpresence, Host.unlink_of_fault hunlink]

end Stops

/-- A save that does not return has been stopped: the temporary file can be written. -/
theorem save_or_stops (settled : host.Settled) (config : Config) (path : Path) :
    (∃ host', config.save path host = (.ok (), host')) ∨
      ∃ failure temporary left, config.Stops path host failure temporary left := by
  cases hensure : host.ensureDirectories path.parent with
  | mk answer host₁ =>
    cases answer with
    | error failure => exact .inr ⟨_, _, _, .directories hensure⟩
    | ok _ =>
      cases hmake : host₁.makeTemporary .file (temporaryName path) with
      | mk answer host₂ =>
        cases answer with
        | error failure => exact .inr ⟨_, _, _, .temporary hensure hmake⟩
        | ok text =>
          have furnishes := Host.furnishes_of_ensureDirectories settled hensure
          obtain ⟨host₃, hwrite, -⟩ :=
            Host.write_of_makeTemporary (furnishes.settled settled) hmake config.text.toUTF8
          cases hreplace : host₃.replace text path.text with
          | error failure => exact .inr ⟨_, _, _, .move hensure hmake hwrite hreplace⟩
          | ok host' =>
              rw [temporaryName] at hmake
              exact .inl ⟨host', by simp only [save, hensure, hmake, hwrite, hreplace]⟩

theorem save_eq_ok_iff (settled : host.Settled) :
    (∃ host', config.save path host = (.ok (), host')) ↔
      ∀ failure temporary left, ¬config.Stops path host failure temporary left := by
  constructor
  · rintro ⟨host', hsave⟩ failure temporary left stops
    obtain ⟨error, host'', herror⟩ := stops.exists_error
    rw [hsave] at herror
    cases herror
  · intro hnone
    refine (save_or_stops settled config path).resolve_right ?_
    rintro ⟨failure, temporary, left, stops⟩
    exact hnone failure temporary left stops

/-- What comes of a save that has been stopped. -/
structure Stopped (config : Config) (path : Path) (host : Host) (failure : Failure)
    (temporary : Option String) (left : Host) : Prop where
  -- if cleaning up meets no fault, the first failure is reported, and all that was there is spared
  reported : ∀ error, failure = .os error → host.cleanUpFault? temporary = none →
    ∃ host', config.save path host = (.error (.unwritable error), host') ∧
      Spared path host host'
  -- if it meets one, this is raised in place of the first failure, and the temporary file stays
  masked : ∀ error fault, failure = .os error → host.cleanUpFault? temporary = some fault →
    config.save path host = (.error (.uninspected fault), left) ∧
      ∃ text, temporary = some text ∧ config.Litters path host text left
  -- a path with a NUL is refused before the system sees it, and nothing is cleaned up
  refused : failure = .embeddedNul → config.save path host = (.error .embeddedNul, left)
  -- in each case what was there before is as it was
  kept : host.tree.Within (config.save path host).2.tree

namespace Stops

theorem save_of_fault (settled : host.Settled) {fault : OsError}
    (stops : config.Stops path host (.os error) temporary left)
    (hfault : host.cleanUpFault? temporary = some fault) :
    config.save path host = (.error (.uninspected fault), left) := by
  rw [stops.save_eq]
  simp only [saveFailed, stops.cleanUp_of_fault settled hfault]

theorem save_of_noFault (sound : host.Sound)
    (stops : config.Stops path host (.os error) temporary left)
    (hfault : host.cleanUpFault? temporary = none) :
    ∃ host', config.save path host = (.error (.unwritable error), host') ∧
      Spared path host host' := by
  obtain ⟨next, hsave⟩ := save_of_breaks sound.settled (stops.tidies hfault) stops.breaks
  exact ⟨_, hsave, spared_of_furnishes sound.connected
    (host.ensureDirectories_furnishes sound.settled path.parent) next⟩

theorem stopped (sound : host.Sound) (stops : config.Stops path host failure temporary left) :
    config.Stopped path host failure temporary left where
  reported := by
    rintro error rfl hfault
    exact stops.save_of_noFault sound hfault
  masked := by
    rintro error fault rfl hfault
    refine ⟨stops.save_of_fault sound.settled hfault, ?_⟩
    cases temporary with
    | none => cases hfault
    | some text => exact ⟨text, rfl, stops.litters sound.settled⟩
  refused := by
    rintro rfl
    exact stops.save_eq
  kept := by
    cases failure with
    | embeddedNul =>
        rw [stops.save_eq]
        exact stops.within sound.settled
    | os error =>
        cases hfault : host.cleanUpFault? temporary with
        | none =>
            obtain ⟨host', hsave, spared⟩ := stops.save_of_noFault sound hfault
            rw [hsave]
            exact spared.kept
        | some fault =>
            rw [stops.save_of_fault sound.settled hfault]
            exact stops.within sound.settled

end Stops
end Config
end Reclaim
