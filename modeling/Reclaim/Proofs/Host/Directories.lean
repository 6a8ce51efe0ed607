import Reclaim.Host.Directories
import Reclaim.Proofs.Files.Creation
import Reclaim.Proofs.Host.Calls

/-!
Making a directory with those around it. Whether or not it goes well, the only entries that are new
are directories, each where a beginning of the path names it; all others are as they were. The
current directory stays where it is as long as no directory is lost.
-/

namespace Reclaim

open Files

namespace Files.Tree

variable {tree tree' : Tree} {place : Place}

/-- A place that is known as it is in one tree stays so in a tree with the same directories. -/
theorem detach_of_directories (h : tree.detach place = place)
    (hkept : ∀ p, tree.get? p = some .directory → tree'.get? p = some .directory) :
    tree'.detach place = place := by
  induction place with
  | nil => rfl
  | cons name around ih =>
      unfold detach at h
      split at h
      · rename_i hget
        exact detach_of_get? (hkept _ hget)
      · obtain ⟨rfl, haround⟩ := List.cons.inj h
        have hnone : tree'.get? ("" :: around) = none := tree'.get?_of_empty_mem (by simp)
        rw [detach, hnone, if_neg (by simp), ih haround]

theorem detach_detach (tree : Tree) (place : Place) :
    tree.detach (tree.detach place) = tree.detach place := by
  induction place with
  | nil => rfl
  | cons name around ih =>
      by_cases hget : tree.get? (name :: around) = some .directory
      · rw [detach_of_get? hget, detach_of_get? hget]
      · have hnone : tree.get? ("" :: tree.detach around) = none :=
          tree.get?_of_empty_mem (by simp)
        rw [detach, if_neg hget, detach, hnone, if_neg (by simp), ih]

end Files.Tree

namespace Host

variable {host host' host'' : Host} {path : Path} {text : String}

/-- The current directory is known as it is: each directory on the way that is gone has no name. A
host is left so by every change of its files, and by going to a directory. -/
def Settled (host : Host) : Prop :=
  host.tree.detach host.cwd = host.cwd

theorem settled_withTree (host : Host) (tree : Tree) : (host.withTree tree).Settled :=
  tree.detach_detach host.cwd

theorem settled_of_directory (h : host.tree.get? host.cwd = some .directory) : host.Settled :=
  Tree.detach_of_get? h

/-- A change that loses no directory leaves the current directory where it is. -/
theorem Settled.withTree_eq (h : host.Settled) {tree : Tree}
    (hkept : ∀ p, host.tree.get? p = some .directory → tree.get? p = some .directory) :
    host.withTree tree = { host with tree } := by
  simp only [withTree, Tree.detach_of_directories h hkept]

/-- Directories have been made around a path, and nothing else has changed. -/
structure Furnishes (host : Host) (path : Path) (host' : Host) : Prop where
  rest : host' = { host with tree := host'.tree }
  added : ∀ q, host'.tree.get? q = host.tree.get? q ∨
    host.tree.get? q = none ∧ host'.tree.get? q = some .directory ∧
      ∃ beginning, beginning <+: path.parts ∧
        host'.tree.placeOf host.cwd (Path.text ⟨path.anchor, beginning⟩) = .ok q

namespace Furnishes

theorem refl (host : Host) (path : Path) : host.Furnishes path host :=
  ⟨rfl, fun _ => .inl rfl⟩

theorem within (h : host.Furnishes path host') : host.tree.Within host'.tree := by
  intro q entry hget
  rcases h.added q with hsame | ⟨hnone, -, -⟩
  · rw [hsame, hget]
  · rw [hnone] at hget
    cases hget

theorem cwd (h : host.Furnishes path host') : host'.cwd = host.cwd := by
  rw [h.rest]

theorem settled (h : host.Furnishes path host') (settled : host.Settled) : host'.Settled := by
  unfold Settled
  rw [h.cwd]
  exact Tree.detach_of_directories settled fun p => h.within p _

theorem trans (h : host.Furnishes path host') (h' : host'.Furnishes path host'') :
    host.Furnishes path host'' where
  rest := by
    rw [h'.rest, h.rest]
  added q := by
    rcases h'.added q with hsame' | ⟨hnone', hmade', beginning, hpart, hplace⟩
    · rcases h.added q with hsame | ⟨hnone, hmade, beginning, hpart, hplace⟩
      · exact .inl (hsame'.trans hsame)
      · -- what was made first is named later on as well
        exact .inr ⟨hnone, hsame'.trans hmade, beginning, hpart,
          Tree.placeOf_within h'.within rfl hplace⟩
    · have hnone : host.tree.get? q = none := by
        rcases h.added q with hsame | ⟨hnone, -, -⟩
        · rw [← hsame, hnone']
        · exact hnone
      exact .inr ⟨hnone, hmade', beginning, hpart, h.cwd ▸ hplace⟩

theorem mono {anchor : Anchor} {parts more : List String} (h : host.Furnishes ⟨anchor, parts⟩ host')
    (hpart : parts <+: more) : host.Furnishes ⟨anchor, more⟩ host' where
  rest := h.rest
  added q := by
    rcases h.added q with hsame | ⟨hnone, hmade, beginning, hbegins, hplace⟩
    · exact .inl hsame
    · exact .inr ⟨hnone, hmade, beginning, hbegins.trans hpart, hplace⟩

end Furnishes

theorem mkdirNow_of_mkdirInside (h : host.mkdirInside text = .ok host') :
    host.mkdirNow text = .ok host' := by
  unfold mkdirInside at h
  split at h
  · rename_i made hmade
    rw [← guarded_eq_ok h, hmade]
  · cases h

theorem mkdirNow_furnishes (settled : host.Settled) (h : host.mkdirNow path.text = .ok host') :
    host.Furnishes path host' := by
  obtain ⟨tree, hmkdir, rfl⟩ := change_eq_ok h
  obtain ⟨place, makes⟩ := Tree.mkdir_makes hmkdir
  rw [settled.withTree_eq fun p => makes.within p _]
  refine ⟨rfl, fun q => ?_⟩
  show tree.get? q = _ ∨ _ ∧ tree.get? q = _ ∧ _
  rw [makes.made]
  split
  · rename_i hq
    subst hq
    exact .inr ⟨makes.vacant, rfl, path.parts, List.prefix_refl _,
      Tree.placeOf_within makes.within rfl makes.placed⟩
  · exact .inl rfl

theorem ensureDirectory_furnishes (settled : host.Settled) (path : Path) :
    host.Furnishes path (host.ensureDirectory path.text).2 := by
  unfold ensureDirectory
  split
  · exact .refl host path
  · split
    · rename_i hmkdir
      exact mkdirNow_furnishes settled (mkdirNow_of_mkdirInside hmkdir)
    · split <;> exact .refl host path

theorem ensureParts_furnishes (anchor : Anchor) (parts : List String) {host : Host}
    (settled : host.Settled) :
    host.Furnishes ⟨anchor, parts.reverse⟩ (ensureParts anchor parts host).2 := by
  induction parts generalizing host with
  | nil => exact ensureDirectory_furnishes settled ⟨anchor, []⟩
  | cons part around ih =>
      have haround : around.reverse <+: (part :: around).reverse := by
        rw [List.reverse_cons]
        exact List.prefix_append _ _
      simp only [ensureParts]
      split
      · exact .refl host _
      · split
        · rename_i hmkdir
          exact mkdirNow_furnishes settled (mkdirNow_of_mkdirInside hmkdir)
        · split
          · have hmade := (ih settled).mono haround
            split
            · rename_i host₁ hensure
              rw [hensure] at hmade
              exact hmade.trans (ensureDirectory_furnishes (hmade.settled settled) _)
            · exact hmade
          · exact .refl host _

/-- Whatever comes of it, only directories around the path are made. -/
theorem ensureDirectories_furnishes (settled : host.Settled) (path : Path) :
    host.Furnishes path (host.ensureDirectories path).2 := by
  have h := ensureParts_furnishes path.anchor path.parts.reverse settled
  rw [List.reverse_reverse] at h
  exact h

theorem furnishes_of_ensureDirectories {answer : Except Failure Unit} (settled : host.Settled)
    (h : host.ensureDirectories path = (answer, host')) : host.Furnishes path host' := by
  have furnishes := ensureDirectories_furnishes settled path
  rw [h] at furnishes
  exact furnishes

end Host
end Reclaim
