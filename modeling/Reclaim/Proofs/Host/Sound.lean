import Reclaim.Host.Temporary
import Reclaim.Proofs.Files.Connected
import Reclaim.Proofs.Host.Directories

/-!
Hosts as they come about: the current directory is known as it is, and every entry lies in a
directory. Every call that changes files leaves a host so, whether or not it goes well. Faults and
the number of the next temporary name have no part in it.
-/

namespace Reclaim.Host

open Files

structure Sound (host : Host) : Prop where
  settled : host.Settled
  connected : host.tree.Connected

namespace Sound

variable {host host' : Host} {text : String}

theorem of_eq {α : Type} {result : α × Host} {answer : α} (sound : result.2.Sound)
    (h : result = (answer, host')) : host'.Sound := by
  rw [h] at sound
  exact sound

theorem withTree (host : Host) {tree : Tree} (connected : tree.Connected) :
    (host.withTree tree).Sound :=
  ⟨host.settled_withTree tree, connected⟩

theorem change {paths : List String} {step : Tree → Place → Except Reason Tree}
    (hstep : ∀ tree, step host.tree host.cwd = .ok tree → tree.Connected)
    (h : host.change paths step = .ok host') : host'.Sound := by
  obtain ⟨tree, htree, rfl⟩ := change_eq_ok h
  exact withTree host (hstep tree htree)

section calls

variable (sound : host.Sound)

include sound

theorem unlinkNow (h : host.unlinkNow text = .ok host') : host'.Sound :=
  change (fun _ => Tree.connected_of_unlink sound.connected) h

theorem rmdirNow (h : host.rmdirNow text = .ok host') : host'.Sound :=
  change (fun _ => Tree.connected_of_rmdir sound.connected) h

theorem mkdirNow (h : host.mkdirNow text = .ok host') : host'.Sound :=
  change (fun _ => Tree.connected_of_mkdir sound.connected sound.settled) h

theorem create (h : host.create text = .ok host') : host'.Sound :=
  change (fun _ => Tree.connected_of_create sound.connected sound.settled) h

theorem symlink {target : String} (h : host.symlink target text = .ok host') : host'.Sound :=
  change (fun _ => Tree.connected_of_symlink sound.connected sound.settled) h

theorem write {content : ByteArray} (h : host.write text content = .ok host') : host'.Sound :=
  change (fun _ => Tree.connected_of_write sound.connected sound.settled) h

theorem replace {target : String} (h : host.replace text target = .ok host') : host'.Sound :=
  change (fun _ => Tree.connected_of_replace sound.connected sound.settled) (guarded_eq_ok h)

theorem breakOff (text : String) (breakdown : Breakdown) :
    (host.breakOff text breakdown).2.Sound := by
  unfold Host.breakOff
  split
  · exact sound
  · rename_i place hresolve
    split
    · exact withTree host (sound.connected.eraseBelowBut place breakdown.spared)
    · exact sound

theorem removeAll (text : String) : (host.removeAll text).2.Sound := by
  have connected := Tree.connected_removeAll sound.connected host.cwd text
  unfold Host.removeAll
  split
  · exact sound
  · split
    · exact sound
    · split
      · exact sound.breakOff text _
      · split <;> rename_i hremove <;> rw [hremove] at connected
        all_goals exact withTree host connected

theorem ensureDirectory (text : String) : (host.ensureDirectory text).2.Sound := by
  unfold Host.ensureDirectory
  split
  · exact sound
  · split
    · rename_i hmkdir
      exact sound.mkdirNow (mkdirNow_of_mkdirInside hmkdir)
    · split <;> exact sound

end calls

theorem ensureParts (anchor : Anchor) (parts : List String) (sound : host.Sound) :
    (Host.ensureParts anchor parts host).2.Sound := by
  induction parts generalizing host with
  | nil => exact sound.ensureDirectory _
  | cons part around ih =>
      simp only [Host.ensureParts]
      split
      · exact sound
      · split
        · rename_i hmkdir
          exact sound.mkdirNow (mkdirNow_of_mkdirInside hmkdir)
        · split
          · split
            · rename_i haround
              exact ((ih sound).of_eq haround).ensureDirectory _
            · exact ih sound
          · exact sound

theorem ensureDirectories (sound : host.Sound) (path : Path) :
    (host.ensureDirectories path).2.Sound :=
  ensureParts path.anchor path.parts.reverse sound

theorem makeNamed {kind : TemporaryKind} (sound : host.Sound)
    (h : makeNamed kind host text = .ok host') : host'.Sound := by
  cases kind with
  | file => exact sound.create (guarded_eq_ok h)
  | directory => exact sound.mkdirNow (guarded_eq_ok h)

/-- Each name is tried on a sound host, since what was tried in vain has changed nothing. -/
theorem tryNames (kind : TemporaryKind) (base before after : String) (attempts : Nat)
    (sound : host.Sound) :
    (tryNames kind base before after attempts host).2.Sound := by
  induction attempts generalizing host with
  | zero => exact sound
  | succ attempts ih =>
      have counted : Sound { host with nextName := host.nextName + 1 } :=
        ⟨sound.settled, sound.connected⟩
      simp only [Host.tryNames]
      split
      · rename_i hmake
        exact counted.makeNamed hmake
      · exact ih counted
      · exact counted

theorem makeTemporary (sound : host.Sound) (kind : TemporaryKind) (name : TemporaryName) :
    (host.makeTemporary kind name).2.Sound := by
  unfold Host.makeTemporary
  cases kind with
  | file =>
      simp only
      split
      · exact sound
      · exact sound.tryNames _ _ _ _ _
  | directory => exact sound.tryNames _ _ _ _ _

theorem discard {kind : TemporaryKind} (sound : host.Sound)
    (h : host.discard kind text = .ok host') : host'.Sound := by
  cases kind with
  | file => exact sound.unlinkNow h
  | directory => exact sound.rmdirNow h

theorem settle {change : Except Failure Host} (sound : host.Sound)
    (h : ∀ host', change = .ok host' → host'.Sound) : (host.settle change).2.Sound := by
  cases change with
  | ok host' => exact h host' rfl
  | error failure => exact sound

theorem remove (sound : host.Sound) (removal : Removal) (text : String) :
    (host.remove removal text).2.Sound := by
  have unlinked : (host.settle (host.unlink text)).2.Sound :=
    sound.settle fun _ h => sound.unlinkNow (guarded_eq_ok h)
  unfold Host.remove
  split
  · exact sound
  · split
    · exact sound
    · exact sound.settle fun _ h => sound.rmdirNow (guarded_eq_ok h)
    · exact unlinked
  · split
    · exact sound
    · exact sound.removeAll text
    · exact unlinked

end Sound
end Reclaim.Host
