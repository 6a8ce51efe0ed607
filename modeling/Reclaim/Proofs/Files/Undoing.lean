import Reclaim.Proofs.Files.Connected

/-!
Taking back what has just been made. The path that an entry was made with still names it, so the
entry is removed by that path and all is as it was before. For a directory this needs that nothing
lies inside; nothing does in a connected tree, since there was nothing below the place before.
-/

namespace Reclaim.Files.Tree

variable {tree tree' : Tree} {cwd place directory : Place} {text name : String}
  {before : List String} {slash : Bool}

theorem Makes.isBare {entry : Entry} (h : tree.Makes cwd text entry place tree')
    (connected : tree.Connected) : tree'.isBare place = true := by
  rw [isBare_iff]
  intro q hbelow
  have hne : q ≠ place := by
    rintro rfl
    simp [Place.below] at hbelow
  rw [h.made, if_neg hne]
  exact connected.vacant_below h.vacant hbelow

/-- An entry that has been put where none was is erased again without a trace. -/
theorem erase_put (hne : place ≠ []) (hplain : "" ∉ place) (hvacant : tree.get? place = none)
    (entry : Entry) : (tree.put place entry).erase place = tree := by
  have hnone : ∀ e ∈ tree.entries, e.1 ≠ place := by
    simpa [get?, hne] using hvacant
  have hkept : (tree.keep fun q => q ≠ place).entries = tree.entries := by
    simpa [keep] using hnone
  have herased : ((tree.put place entry).erase place).entries = tree.entries := by
    simp only [put, hplain, dite_false, erase, keep] at hkept ⊢
    simpa [hkept] using hnone
  cases tree
  exact Tree.mk.injEq .. ▸ herased

theorem put_put (tree : Tree) (place : Place) (entry other : Entry) :
    (tree.put place entry).put place other = tree.put place other := by
  by_cases hplain : "" ∈ place
  · simp only [put, hplain, dite_true]
  · simp [put, hplain, keep]

theorem lookup_of_size (hsize : name.utf8ByteSize ≤ maxNameSize) :
    tree.lookup directory name = .ok (tree.get? (name :: directory)) := by
  rw [lookup, if_neg (Nat.not_lt.mpr hsize)]

theorem components_of_splitFinal (hsplit : splitFinal text = (before, .name name false)) :
    Path.isPart name = true ∧ name ≠ ".." ∧ components text = before ++ [name] := by
  obtain ⟨his, hup, gap, hgap, hcomponents⟩ := endsWith_of_splitFinal hsplit
  refine ⟨his, hup, ?_⟩
  cases gap using List.reverseRecOn with
  | nil => exact hcomponents
  | append_singleton gap c =>
      -- a component after the name is the empty one after a slash
      obtain rfl : c = "" := hgap c (by simp)
      have hslash : (components text).reverse.head? = some "" := by simp [hcomponents]
      rw [splitFinal, hslash] at hsplit
      split at hsplit
      · cases hsplit
      · obtain ⟨-, hfinal⟩ := Prod.mk.inj hsplit
        unfold Final.ofName at hfinal
        split at hfinal
        · cases hfinal
        · split at hfinal
          · cases hfinal
          · cases hfinal

/-- A path that names a place finds its final name in the directory of that place. -/
theorem resolveParent_of_placeOf (hsplit : splitFinal text = (before, .name name slash))
    (h : tree.placeOf cwd text = .ok place) :
    ∃ directory, place = name :: directory ∧ name.utf8ByteSize ≤ maxNameSize ∧
      tree.resolveParent cwd text = .ok (directory, .name name slash) := by
  unfold placeOf at h
  cases hparent : tree.resolveParent cwd text with
  | error reason => simp [hparent] at h
  | ok found =>
      obtain ⟨directory, final⟩ := found
      obtain ⟨before', hsplit'⟩ := splitFinal_of_resolveParent hparent
      obtain ⟨-, rfl⟩ := Prod.mk.inj (hsplit.symm.trans hsplit')
      simp only [hparent, Final.placeIn] at h
      split at h
      · cases h
      · rename_i hsize
        exact ⟨directory, (Except.ok.inj h).symm, Nat.not_lt.mp hsize, rfl⟩

theorem unlink_of_placeOf {content : ByteArray}
    (hsplit : splitFinal text = (before, .name name false))
    (hplace : tree.placeOf cwd text = .ok place)
    (hfile : tree.get? place = some (.file content)) :
    tree.unlink cwd text = .ok (tree.erase place) := by
  obtain ⟨directory, rfl, hsize, hparent⟩ := resolveParent_of_placeOf hsplit hplace
  simp [unlink, hparent, lookup_of_size hsize, hfile, bind, Except.bind]

/-- A directory is removed by the path that names it, if nothing lies inside. -/
theorem rmdir_of_placeOf (hsplit : splitFinal text = (before, .name name slash))
    (hplace : tree.placeOf cwd text = .ok place)
    (hdirectory : tree.get? place = some .directory) (hbare : tree.isBare place = true) :
    tree.rmdir cwd text = .ok (tree.erase place) := by
  obtain ⟨directory, rfl, hsize, hparent⟩ := resolveParent_of_placeOf hsplit hplace
  simp [rmdir, hparent, lookup_of_size hsize, hdirectory, hbare, bind, Except.bind]

/-- What is put where none was is put under the final name of its path, and erased again without a
trace. -/
theorem erase_of_putNew {entry : Entry}
    (hparent : tree.resolveParent cwd text = .ok (directory, .name name slash))
    (hput : tree.putNew directory name entry = .ok tree') :
    tree'.erase (name :: directory) = tree := by
  obtain ⟨found, hlookup, hput⟩ := bind_eq_ok hput
  have hget := (lookup_eq_ok hlookup).2
  cases found with
  | some other => cases hput
  | none =>
      simp only at hput
      split at hput
      · cases hput
      · rename_i hdirectory
        obtain ⟨before, hends⟩ := resolveParent_eq_ok hparent
        cases hput
        exact erase_put (List.cons_ne_nil _ _) (empty_not_mem hends hdirectory) hget entry

/-- A file is made under the final name of its path, with no slash after it. -/
theorem create_eq_ok (h : tree.create cwd text = .ok tree') :
    ∃ before directory name, splitFinal text = (before, .name name false) ∧
      tree.resolveParent cwd text = .ok (directory, .name name false) ∧
      tree.putNew directory name (.file .empty) = .ok tree' := by
  obtain ⟨⟨directory, final⟩, hparent, h⟩ := bind_eq_ok h
  cases final with
  | name name slash =>
      obtain ⟨before, hsplit⟩ := splitFinal_of_resolveParent hparent
      cases slash with
      | true => cases h
      | false => exact ⟨before, directory, name, hsplit, hparent, h⟩
  | _ => cases h

theorem unlink_of_create (h : tree.create cwd text = .ok tree') :
    tree'.unlink cwd text = .ok tree := by
  obtain ⟨before, directory, name, hsplit, hparent, hput⟩ := create_eq_ok h
  have makes := makes_of_putNew hparent hput
  have hplace := placeOf_within makes.within rfl makes.placed
  rw [unlink_of_placeOf hsplit hplace (makes.made _ ▸ if_pos rfl), erase_of_putNew hparent hput]

theorem putNew_put {entry : Entry} (h : tree.putNew directory name entry = .ok tree')
    (other : Entry) :
    tree.putNew directory name other = .ok (tree'.put (name :: directory) other) := by
  obtain ⟨found, hlookup, hput⟩ := bind_eq_ok h
  cases found with
  | some there => cases hput
  | none =>
      simp only at hput
      split at hput
      · cases hput
      · rename_i hdirectory
        cases hput
        rw [putNew, hlookup, put_put]
        exact if_neg hdirectory

/-- A file that has just been made is written by its path, which leads to it, and is taken back by
its path afterwards. -/
theorem write_of_create (h : tree.create cwd text = .ok tree') (content : ByteArray) :
    ∃ written place, tree'.write cwd text content = .ok written ∧
      tree.Makes cwd text (.file content) place written ∧
      written.resolve cwd true text = .ok place ∧ written.unlink cwd text = .ok tree := by
  obtain ⟨before, directory, name, hsplit, hparent, hput⟩ := create_eq_ok h
  obtain ⟨his, hup, hcomponents⟩ := components_of_splitFinal hsplit
  have makes := makes_of_putNew hparent hput
  have hput' := putNew_put hput (.file content)
  have makes' := makes_of_putNew hparent hput'
  have hleads : ∀ {tree₁ : Tree} {content}, tree.Makes cwd text (.file content)
      (name :: directory) tree₁ → tree₁.resolve cwd true text = .ok (name :: directory) :=
    fun makes => resolve_file his hup (by simp) hcomponents
      (placeOf_within makes.within rfl makes.placed) (makes.made _ ▸ if_pos rfl)
  refine ⟨_, _, ?_, makes', hleads makes', ?_⟩
  · rw [write, hleads makes]
    simp [reached, makes.made]
  · rw [unlink_of_placeOf hsplit (placeOf_within makes'.within rfl makes'.placed)
      (makes'.made _ ▸ if_pos rfl), erase_of_putNew hparent hput']

theorem rmdir_of_mkdir (connected : tree.Connected) (h : tree.mkdir cwd text = .ok tree') :
    tree'.rmdir cwd text = .ok tree := by
  obtain ⟨⟨directory, final⟩, hparent, h⟩ := bind_eq_ok h
  cases final with
  | name name slash =>
      obtain ⟨before, hsplit⟩ := splitFinal_of_resolveParent hparent
      have makes := makes_of_putNew hparent h
      have hplace := placeOf_within makes.within rfl makes.placed
      rw [rmdir_of_placeOf hsplit hplace (makes.made _ ▸ if_pos rfl) (makes.isBare connected),
        erase_of_putNew hparent h]
  | _ => cases h

end Reclaim.Files.Tree
