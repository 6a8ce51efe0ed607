import Reclaim.Proofs.Config.RoundTrip
import Reclaim.Proofs.Tracking.Orphans

/-!
Saves that break. A call that fails, before the temporary file is made, while it is made, or when it
is to be moved to the path, is reported as the failure of the save. The temporary file is gone then,
and all that was there is as it was. What may be left are directories that were missing around the
path, with nothing in them but each other.
-/

namespace Reclaim

open Files

namespace Host

variable {host host' : Host} {name : TemporaryName} {text : String}

/-- A temporary file can be written. It is found by its path then, and is removed by it without a
trace, unless a fault is met. -/
theorem write_of_makeTemporary (settled : host.Settled)
    (h : host.makeTemporary .file name = (.ok text, host')) (content : ByteArray) :
    ∃ written, host'.write text content = .ok written ∧
      (host.fault? .presence text = none → written.present text = .ok true) ∧
      (host.fault? .unlink text = none →
        written.unlink text = .ok { host with nextName := host'.nextName }) := by
  obtain ⟨next, hmake⟩ := exists_makeNamed h
  have hnul := (makeNamed_eq_ok hmake).1
  have settled' : Settled { host with nextName := next } := settled
  obtain ⟨tree, hcreate, rfl⟩ := change_eq_ok (guarded_eq_ok hmake)
  obtain ⟨made, makes⟩ := Tree.create_makes hcreate
  obtain ⟨tree', place, hwrite, makes', hresolve, hunlink⟩ := Tree.write_of_create hcreate content
  rw [withTree_of_makes settled' makes]
  have hwritten : Host.write { host with tree, nextName := next } text content =
      .ok { host with tree := tree', nextName := next } := by
    have hcwd := Tree.detach_of_directories settled fun p => makes'.within p _
    simp [Host.write, change, hnul, hwrite, withTree, hcwd]
  refine ⟨_, hwritten, fun hfault => present_of_resolve hfault hnul hresolve, fun hfault => ?_⟩
  have hfault' : fault? { host with tree := tree', nextName := next } .unlink text = none :=
    hfault
  rw [unlink, guarded, hfault']
  exact change_back settled' hnul (fun tree cwd => tree.unlink cwd text) hunlink

end Host

namespace Config

variable {config : Config} {path : Path} {host host' : Host} {error : OsError}

def temporaryName (path : Path) : TemporaryName :=
  ⟨some path.parent.text, "tmp", ".tmp"⟩

/-- How a save breaks: a directory around the path cannot be made, no temporary file can be made in
it, or that file cannot be moved to the path. -/
inductive Breaks (config : Config) (path : Path) (host : Host) (error : OsError) : Prop
  | directories {host₁ : Host}
      (h : host.ensureDirectories path.parent = (.error (.os error), host₁))
  | temporary {host₁ host₂ : Host} (hensure : host.ensureDirectories path.parent = (.ok (), host₁))
      (h : host₁.makeTemporary .file (temporaryName path) = (.error (.os error), host₂))
  | move {host₁ host₂ host₃ : Host} {text : String}
      (hensure : host.ensureDirectories path.parent = (.ok (), host₁))
      (hmake : host₁.makeTemporary .file (temporaryName path) = (.ok text, host₂))
      (hwrite : host₂.write text config.text.toUTF8 = .ok host₃)
      (h : host₃.replace text path.text = .error (.os error))

/-- The calls that look for the temporary file of a save and remove it meet no fault. -/
def Tidies (path : Path) (host : Host) : Prop :=
  ∀ host₁ host₂ text, host.ensureDirectories path.parent = (.ok (), host₁) →
    host₁.makeTemporary .file (temporaryName path) = (.ok text, host₂) →
      host.fault? .presence text = none ∧ host.fault? .unlink text = none

/-- What a save that broke leaves behind. -/
structure Spared (path : Path) (host host' : Host) : Prop where
  -- but for the tree and the number of the next temporary name, the host is the same
  rest : host' = { host with tree := host'.tree, nextName := host'.nextName }
  kept : ∀ q entry, host.tree.get? q = some entry → host'.tree.get? q = some entry
  -- what is new is a directory that a beginning of the path names, and nothing lies inside that is
  -- not new
  added : ∀ q, host.tree.get? q = none → host'.tree.get? q ≠ none →
    host'.tree.get? q = some .directory ∧
      (∃ beginning, beginning <+: path.parent.parts ∧
        host'.tree.placeOf host.cwd (Path.text ⟨path.anchor, beginning⟩) = .ok q) ∧
      ∀ inner, q.below inner = true → host.tree.get? inner = none

theorem spared_of_furnishes {host₁ : Host} (connected : host.tree.Connected)
    (h : host.Furnishes path.parent host₁) (next : Nat) :
    Spared path host { host₁ with nextName := next } where
  rest := by rw [h.rest]
  kept q entry := h.within q entry
  added q hnone hsome := by
    rcases h.added q with hsame | ⟨-, hmade, beginning, hpart, hplace⟩
    · exact absurd (hsame.trans hnone) hsome
    · exact ⟨hmade, ⟨beginning, hpart, hplace⟩, fun inner => connected.vacant_below hnone⟩

/-- A save that breaks answers the failure that it met, and leaves the host as it was when the
directories around the path had been made. -/
theorem save_of_breaks (settled : host.Settled) (tidies : Tidies path host)
    (breaks : config.Breaks path host error) :
    ∃ next, config.save path host = (.error (.unwritable error),
      { (host.ensureDirectories path.parent).2 with nextName := next }) := by
  cases breaks with
  | @directories host₁ h => exact ⟨host₁.nextName, by simp only [save, h, saveFailed, cleanUp]⟩
  | @temporary host₁ host₂ hensure h =>
      refine ⟨host₂.nextName, ?_⟩
      have hhost : host₂ = { host₁ with nextName := host₂.nextName } :=
        Host.makeTemporary_eq_error h
      rw [temporaryName] at h
      simp only [save, hensure, h, saveFailed, cleanUp, ← hhost]
  | @move host₁ host₂ host₃ text hensure hmake hwrite h =>
      refine ⟨host₂.nextName, ?_⟩
      obtain ⟨hpresence, hunlink⟩ := tidies _ _ _ hensure hmake
      have furnishes := Host.furnishes_of_ensureDirectories settled hensure
      have hfaults : ∀ call, host₁.fault? call text = host.fault? call text := by
        intro call
        rw [furnishes.rest]
        rfl
      obtain ⟨written, hwritten, hpresent, hremoved⟩ :=
        Host.write_of_makeTemporary (furnishes.settled settled) hmake config.text.toUTF8
      obtain rfl : host₃ = written := Except.ok.inj (hwrite.symm.trans hwritten)
      rw [temporaryName] at hmake
      simp only [save, hensure, hmake, hwrite, h, saveFailed, cleanUp,
        hpresent ((hfaults _).trans hpresence), hremoved ((hfaults _).trans hunlink)]

theorem cleanUp_unwritable {temporary : Option String} {met : OsError}
    (h : cleanUp temporary met host = (.unwritable error, host')) : met = error := by
  unfold cleanUp at h
  split at h
  · cases h
    rfl
  · split at h
    · cases h
    · cases h
      rfl
    · split at h <;> cases h
      rfl

theorem saveFailed_unwritable {temporary : Option String} {failure : Failure}
    (h : saveFailed temporary failure host = (.error (.unwritable error), host')) :
    failure = .os error := by
  cases failure with
  | embeddedNul => cases h
  | os met =>
      obtain ⟨hreport, rfl⟩ := Prod.mk.inj h
      rw [cleanUp_unwritable (Prod.ext (Except.error.inj hreport) rfl)]

theorem breaks_of_save (settled : host.Settled)
    (h : config.save path host = (.error (.unwritable error), host')) :
    config.Breaks path host error := by
  unfold save at h
  split at h
  · rename_i hensure
    obtain rfl := saveFailed_unwritable h
    exact .directories hensure
  · rename_i host₁ hensure
    have furnishes := Host.furnishes_of_ensureDirectories settled hensure
    split at h
    · rename_i hmake
      obtain rfl := saveFailed_unwritable h
      exact .temporary hensure hmake
    · rename_i hmake
      split at h
      · -- the file that has just been made can be written
        rename_i hwrite
        obtain ⟨written, hwritten, -⟩ := Host.write_of_makeTemporary (furnishes.settled settled)
          hmake config.text.toUTF8
        rw [hwrite] at hwritten
        cases hwritten
      · rename_i hwrite
        split at h
        · cases h
        · rename_i hreplace
          obtain rfl := saveFailed_unwritable h
          exact .move hensure hmake hwrite hreplace

/-- A save reports a failure exactly if it breaks with it, and spares all that was there then: the
only new entries are directories around the path. -/
theorem broken_save_spares (sound : host.Sound) (tidies : Tidies path host) :
    (config.Breaks path host error ↔
      ∃ host', config.save path host = (.error (.unwritable error), host')) ∧
    ∀ host', config.save path host = (.error (.unwritable error), host') →
      Spared path host host' := by
  refine ⟨⟨fun breaks => ?_, fun ⟨host', hsave⟩ => breaks_of_save sound.settled hsave⟩, ?_⟩
  · obtain ⟨next, hsave⟩ := save_of_breaks sound.settled tidies breaks
    exact ⟨_, hsave⟩
  · intro host' hsave
    have breaks := breaks_of_save sound.settled hsave
    obtain ⟨next, hsave'⟩ := save_of_breaks sound.settled tidies breaks
    rw [hsave] at hsave'
    obtain ⟨-, rfl⟩ := Prod.mk.inj hsave'
    exact spared_of_furnishes sound.connected
      (host.ensureDirectories_furnishes sound.settled path.parent) next

def fullDisk : Host :=
  { Host.bare with
    tree := Tree.empty.put ["kept"] (.file .empty)
    faults := [⟨.replace, .everywhere, .plain "disk full"⟩] }

theorem broken_save_spares_fullDisk :
    fullDisk.Sound ∧ Tidies (.ofText "a/b/c.toml") fullDisk ∧
      ∃ host', Config.default.save (.ofText "a/b/c.toml") fullDisk =
        (.error (.unwritable (.plain "disk full")), host') ∧
      Spared (.ofText "a/b/c.toml") fullDisk host' ∧
      host'.tree.get? ["kept"] = some (.file .empty) ∧
      host'.tree.get? ["b", "a"] = some .directory := by
  have sound : fullDisk.Sound := ⟨rfl, Tree.connected_empty.put rfl nofun (by decide) _⟩
  have tidies : Tidies (.ofText "a/b/c.toml") fullDisk := fun _ _ _ _ _ => ⟨rfl, rfl⟩
  have hsave : Config.default.save (.ofText "a/b/c.toml") fullDisk =
      (.error (.unwritable (.plain "disk full")), _) := rfl
  have spared := (broken_save_spares sound tidies).2 _ hsave
  exact ⟨sound, tidies, _, hsave, spared, spared.kept _ _ rfl, rfl⟩

end Config
end Reclaim
