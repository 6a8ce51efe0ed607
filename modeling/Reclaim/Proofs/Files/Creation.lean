import Reclaim.Proofs.Files.Named

/-!
Making one entry. It stands where its path names it, nothing was there before, and all other
entries are as they were. What an earlier path led to, it leads to afterwards.
-/

namespace Reclaim.Files.Tree

/-- One entry is made where its path names it. -/
structure Makes (tree : Tree) (cwd : Place) (text : String) (entry : Entry) (place : Place)
    (tree' : Tree) : Prop where
  named : ∃ before name, EndsWith text before name
  placed : tree.placeOf cwd text = .ok place
  vacant : tree.get? place = none
  made : ∀ q, tree'.get? q = if q = place then some entry else tree.get? q

theorem Makes.within {tree tree' : Tree} {cwd place : Place} {text : String} {entry : Entry}
    (h : tree.Makes cwd text entry place tree') : tree.Within tree' := by
  intro q found hq
  have hne : q ≠ place := by
    rintro rfl
    rw [h.vacant] at hq
    cases hq
  rw [h.made, if_neg hne]
  exact hq

/-- The final component under which something is found is the one that is written. -/
theorem splitFinal_of_resolveParent {tree : Tree} {cwd directory : Place} {text : String}
    {final : Final} (h : tree.resolveParent cwd text = .ok (directory, final)) :
    ∃ before, splitFinal text = (before, final) := by
  unfold resolveParent at h
  split at h
  · cases h
  · cases hsplit : splitFinal text with
    | mk before final =>
        simp only [hsplit] at h
        split at h
        · cases h
        · cases h
          exact ⟨before, rfl⟩

theorem resolveParent_eq_ok {tree : Tree} {cwd directory : Place} {text name : String}
    {slash : Bool} (h : tree.resolveParent cwd text = .ok (directory, .name name slash)) :
    ∃ before, EndsWith text before name := by
  obtain ⟨before, hsplit⟩ := splitFinal_of_resolveParent h
  exact ⟨before, endsWith_of_splitFinal hsplit⟩

theorem placeOf_of_lookup {tree : Tree} {cwd directory : Place} {text name : String} {slash : Bool}
    {found : Option Entry}
    (hparent : tree.resolveParent cwd text = .ok (directory, .name name slash))
    (hlookup : tree.lookup directory name = .ok found) :
    tree.placeOf cwd text = .ok (name :: directory) := by
  have hsize := (lookup_eq_ok hlookup).1
  simp only [placeOf, hparent, Final.placeIn, if_neg (Nat.not_lt.mpr hsize)]

theorem empty_not_mem {tree : Tree} {directory : Place} {text name : String} {before : List String}
    (hends : EndsWith text before name) (hdirectory : tree.get? directory ≠ none) :
    "" ∉ name :: directory := by
  intro hmem
  rcases List.mem_cons.mp hmem with hname | hmem
  · exact (not_or.mp (not_skipped hends.isPart)).1 hname.symm
  · exact hdirectory (tree.get?_of_empty_mem hmem)

theorem makes_of_putNew {tree tree' : Tree} {cwd directory : Place} {text name : String}
    {slash : Bool} {entry : Entry}
    (hparent : tree.resolveParent cwd text = .ok (directory, .name name slash))
    (hput : tree.putNew directory name entry = .ok tree') :
    tree.Makes cwd text entry (name :: directory) tree' := by
  obtain ⟨before, hends⟩ := resolveParent_eq_ok hparent
  obtain ⟨found, hlookup, hput⟩ := bind_eq_ok hput
  have hget := (lookup_eq_ok hlookup).2
  cases found with
  | some other => cases hput
  | none =>
      simp only at hput
      split at hput
      · cases hput
      · rename_i hdirectory
        obtain rfl : tree.put (name :: directory) entry = tree' := Except.ok.inj hput
        refine ⟨⟨before, name, hends⟩, placeOf_of_lookup hparent hlookup, hget, ?_⟩
        exact tree.get?_put (List.cons_ne_nil name directory) (empty_not_mem hends hdirectory) entry

theorem create_makes {tree tree' : Tree} {cwd : Place} {text : String}
    (h : tree.create cwd text = .ok tree') :
    ∃ place, tree.Makes cwd text (.file .empty) place tree' := by
  obtain ⟨⟨directory, final⟩, hparent, h⟩ := bind_eq_ok h
  cases final with
  | name name slash =>
      simp only at h
      split at h
      · cases h
      · exact ⟨_, makes_of_putNew hparent h⟩
  | _ => cases h

theorem mkdir_makes {tree tree' : Tree} {cwd : Place} {text : String}
    (h : tree.mkdir cwd text = .ok tree') :
    ∃ place, tree.Makes cwd text .directory place tree' := by
  obtain ⟨⟨directory, final⟩, hparent, h⟩ := bind_eq_ok h
  cases final with
  | name name slash => exact ⟨_, makes_of_putNew hparent h⟩
  | _ => cases h

end Reclaim.Files.Tree
