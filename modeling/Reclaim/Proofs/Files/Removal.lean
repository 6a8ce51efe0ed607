import Reclaim.Files.Change
import Reclaim.Proofs.Basic
import Reclaim.Proofs.Files.Walk
import Reclaim.Proofs.Path.Text

/-!
What a removal takes away. Removing the entry that a path names takes away that entry and nothing
else, and once it is gone the path leads nowhere, even from a current directory that has been
removed with it. The removal of a whole directory may break off, but takes away nothing that is not
in it. The paths here are texts of paths that have been read, so the final name is followed by no
slash.
-/

namespace Reclaim.Files.Tree

open Reclaim.Path (isPart)

theorem within_keep (tree : Tree) (test : Place → Bool) : (tree.keep test).Within tree := by
  intro place entry h
  by_cases hp : place = []
  · subst hp
    exact h
  · rw [get?_keep _ _ hp] at h
    split at h
    · exact h
    · cases h

theorem Within.refl (tree : Tree) : tree.Within tree :=
  fun _ _ h => h

theorem Within.trans {tree tree₁ tree₂ : Tree} (h : tree₂.Within tree₁) (h' : tree₁.Within tree) :
    tree₂.Within tree :=
  fun place entry hget => h' place entry (h place entry hget)

theorem scan_lead {tree : Tree} {followLast : Bool} {place : Place} {lead : List String}
    (h : ∀ c ∈ lead, isPart c = false) (names : List String) :
    tree.scan followLast place (lead ++ names) = tree.scan followLast place names := by
  induction lead with
  | nil => rfl
  | cons c lead ih =>
      rw [List.cons_append, tree.scan_skip followLast place _ (h c List.mem_cons_self)]
      exact ih fun d hd => h d (List.mem_cons_of_mem _ hd)

theorem follow_lead {tree : Tree} {followLast : Bool} {links : Nat} {place : Place}
    {lead : List String} (h : ∀ c ∈ lead, isPart c = false) (names : List String) :
    tree.follow followLast links place (lead ++ names) =
      tree.follow followLast links place names := by
  rw [follow, scan_lead h names, ← follow]

theorem start_ofText (cwd : Place) (text : String) :
    start cwd (Path.ofText text).text = start cwd text := by
  simp only [start, Path.head?_text_ofText]

theorem resolve_eq_ok {tree : Tree} {cwd : Place} {followLast : Bool} {text : String}
    {p : Place} :
    tree.resolve cwd followLast text = .ok p ↔
      checkText text = .ok () ∧
        tree.follow followLast maxLinks (start cwd text) (components text) = .ok p := by
  unfold resolve
  split
  · rename_i reason hcheck
    simp [hcheck]
  · rename_i hcheck
    simp [hcheck]

theorem checkText_ofText {text : String} (h : checkText text = .ok ()) :
    checkText (Path.ofText text).text = .ok () := by
  unfold checkText at h ⊢
  split at h
  · cases h
  · rename_i hsize
    split at h
    · cases h
    · rename_i hne
      have := Path.utf8ByteSize_text_ofText hne
      rw [if_neg (by omega), if_neg (Path.text_ne_empty (Path.isRead_ofText text))]

/-- Where a path leads to an entry, links followed or not, the path that has been read from it
names one. -/
theorem resolve_ofText {tree : Tree} {cwd : Place} {followLast : Bool} {text : String} {p : Place}
    (h : tree.resolve cwd followLast text = .ok p) :
    ∃ p', tree.resolve cwd false (Path.ofText text).text = .ok p' := by
  obtain ⟨hcheck, hfollow⟩ := resolve_eq_ok.mp h
  rw [← List.nil_append (components text)] at hfollow
  obtain ⟨p', hp'⟩ := follow_filter hfollow
  obtain ⟨lead, hlead, hcomponents⟩ := Path.components_text (Path.isRead_ofText text)
  refine ⟨p', resolve_eq_ok.mpr ⟨checkText_ofText hcheck, ?_⟩⟩
  rw [start_ofText, hcomponents, follow_lead hlead]
  exact hp'

/-- What a path leads to when links are followed, it also names. -/
theorem resolve_false {tree : Tree} {cwd : Place} {followLast : Bool} {text : String} {p : Place}
    (h : tree.resolve cwd followLast text = .ok p) :
    ∃ p', tree.resolve cwd false text = .ok p' := by
  obtain ⟨hcheck, hfollow⟩ := resolve_eq_ok.mp h
  rw [← List.append_nil (components text)] at hfollow
  obtain ⟨p', hp'⟩ := follow_filter hfollow
  rw [List.filter_nil, List.append_nil] at hp'
  exact ⟨p', resolve_eq_ok.mpr ⟨hcheck, hp'⟩⟩

/-- The entry at a place is the one that the final name of a path has in its directory. -/
def Takes (tree : Tree) (cwd : Place) (text : String) (place : Place) : Prop :=
  ∃ directory name slash, place = name :: directory ∧
    tree.resolveParent cwd text = .ok (directory, .name name slash) ∧
    name.utf8ByteSize ≤ maxNameSize ∧ tree.get? place ≠ none

theorem lookup_eq_ok {tree : Tree} {directory : Place} {name : String} {found : Option Entry}
    (h : tree.lookup directory name = .ok found) :
    name.utf8ByteSize ≤ maxNameSize ∧ tree.get? (name :: directory) = found := by
  unfold lookup at h
  split at h
  · cases h
  · rename_i hsize
    exact ⟨Nat.not_lt.mp hsize, Except.ok.inj h⟩

theorem takes_of_lookup {tree : Tree} {cwd directory : Place} {text name : String} {slash : Bool}
    {entry : Entry} (hparent : tree.resolveParent cwd text = .ok (directory, .name name slash))
    (hlookup : tree.lookup directory name = .ok (some entry)) :
    tree.Takes cwd text (name :: directory) := by
  obtain ⟨hsize, hget⟩ := lookup_eq_ok hlookup
  exact ⟨directory, name, slash, rfl, hparent, hsize, by simp [hget]⟩

theorem unlink_eq_ok {tree tree' : Tree} {cwd : Place} {text : String}
    (h : tree.unlink cwd text = .ok tree') :
    ∃ place, tree.Takes cwd text place ∧ tree.get? place ≠ some .directory ∧
      tree' = tree.erase place := by
  obtain ⟨⟨directory, final⟩, hparent, h⟩ := bind_eq_ok h
  cases final with
  | name name slash =>
      obtain ⟨found, hlookup, h⟩ := bind_eq_ok h
      cases found with
      | none => cases h
      | some entry =>
          refine ⟨_, takes_of_lookup hparent hlookup, ?_⟩
          rw [(lookup_eq_ok hlookup).2]
          cases entry <;> cases slash <;> simp_all
  | _ => cases h

theorem rmdir_eq_ok {tree tree' : Tree} {cwd : Place} {text : String}
    (h : tree.rmdir cwd text = .ok tree') :
    ∃ place, tree.Takes cwd text place ∧ tree.get? place = some .directory ∧
      tree.isBare place = true ∧ tree' = tree.erase place := by
  obtain ⟨⟨directory, final⟩, hparent, h⟩ := bind_eq_ok h
  cases final with
  | name name slash =>
      obtain ⟨found, hlookup, h⟩ := bind_eq_ok h
      cases found with
      | none => cases h
      | some entry =>
          refine ⟨_, takes_of_lookup hparent hlookup, ?_⟩
          rw [(lookup_eq_ok hlookup).2]
          cases entry with
          | directory =>
              simp only at h
              split at h
              · rename_i hbare
                exact ⟨rfl, hbare, (Except.ok.inj h).symm⟩
              · cases h
          | _ => cases h
  | _ => cases h

/-- The removal of a whole directory goes well if its contents can be removed and the directory
is then found bare by the same path. -/
theorem removeAll_eq_ok {tree tree' : Tree} {cwd : Place} {text : String}
    (h : tree.removeAll cwd text = (.ok (), tree')) :
    ∃ place, tree.resolve cwd false text = .ok place ∧ tree.reached place = .directory ∧
      (tree.eraseBelow place).rmdir cwd text = .ok tree' := by
  unfold removeAll at h
  split at h
  · cases h
  · rename_i place hresolve
    split at h
    · rename_i hreached
      simp only at h
      split at h
      · cases h
      · rename_i hrmdir
        cases h
        exact ⟨place, hresolve, hreached, hrmdir⟩
    · cases h

theorem removeAll_eq_error {tree tree' : Tree} {cwd : Place} {text : String} {reason : Reason}
    (h : tree.removeAll cwd text = (.error reason, tree')) :
    tree' = tree ∨ ∃ place, tree.resolve cwd false text = .ok place ∧
      tree.reached place = .directory ∧ tree' = tree.eraseBelow place := by
  unfold removeAll at h
  split at h
  · cases h
    exact .inl rfl
  · rename_i place hresolve
    split at h
    · rename_i hreached
      simp only at h
      split at h
      · cases h
        exact .inr ⟨place, hresolve, hreached, rfl⟩
      · cases h
    · cases h
      exact .inl rfl

/-- The removal of a directory takes what lies inside and then, by the same path, the directory. -/
theorem removeAll_of_leads {tree : Tree} {cwd : Place} {text : String} {place : Place}
    (leads : tree.resolve cwd false text = .ok place)
    (directory : tree.reached place = .directory) :
    tree.removeAll cwd text =
      match (tree.eraseBelow place).rmdir cwd text with
      | .error reason => (.error reason, tree.eraseBelow place)
      | .ok tree => (.ok (), tree) := by
  cases hrmdir : (tree.eraseBelow place).rmdir cwd text <;>
    simp only [removeAll, leads, directory, hrmdir]

/-- The final component of the text of a path that has been read is its last part, with no slash
after it. -/
theorem splitFinal_text {p : Path} (h : p.IsRead) {before : List String} {name : String}
    {slash : Bool} (hsplit : splitFinal p.text = (before, .name name slash)) :
    components p.text = before ++ [name] ∧ isPart name = true ∧ name ≠ ".." := by
  obtain ⟨lead, hlead, hcomponents⟩ := Path.components_text h
  simp only [splitFinal, hcomponents, List.reverse_append] at hsplit
  rcases List.eq_nil_or_concat p.parts with hparts | ⟨init, last, hparts⟩
  · -- without parts only empty components and dots are left, and none of these is a name
    rw [hparts, List.reverse_nil, List.nil_append] at hsplit
    split at hsplit
    · cases hsplit
    · rename_i c rest hdrop
      have hmem : c ∈ lead := by
        have : c ∈ lead.reverse.dropWhile (· = "") := hdrop ▸ List.mem_cons_self
        exact List.mem_reverse.mp ((List.dropWhile_sublist _).mem this)
      have hne : c ≠ "" := by
        have := List.head?_dropWhile_not (fun c => decide (c = "")) lead.reverse
        simpa [hdrop] using this
      have hdot : c = "." := by
        have := hlead c hmem
        simpa [isPart, hne] using this
      simp [hdot, Final.ofName] at hsplit
  · -- the last part is not empty, so nothing is passed over to find it
    have hlast : isPart last = true := (h last (by simp [hparts])).1
    have hne : last ≠ "" := by
      rintro rfl
      exact absurd hlast (by decide)
    rw [hparts, List.concat_eq_append, List.reverse_append, List.reverse_singleton,
      List.singleton_append, List.cons_append, List.dropWhile_cons_of_neg (by simpa using hne)]
      at hsplit
    simp only [List.head?_cons, Option.some.injEq, hne, decide_false, Prod.mk.injEq,
      Final.ofName, List.reverse_append, List.reverse_reverse] at hsplit
    obtain ⟨rfl, hfinal⟩ := hsplit
    split at hfinal
    · cases hfinal
    · split at hfinal
      · cases hfinal
      · rename_i hup
        obtain ⟨rfl, -⟩ := Final.name.inj hfinal
        refine ⟨?_, hlast, hup⟩
        rw [hcomponents, hparts, List.concat_eq_append, List.append_assoc]

theorem exists_of_takes {tree : Tree} {cwd : Place} {p : Path} {place : Place} (h : p.IsRead)
    (takes : tree.Takes cwd p.text place) :
    ∃ before name directory, place = name :: directory ∧ components p.text = before ++ [name] ∧
      isPart name = true ∧ name ≠ ".." ∧ checkText p.text = .ok () ∧
      tree.follow true maxLinks (start cwd p.text) (before ++ [""]) = .ok directory ∧
      name.utf8ByteSize ≤ maxNameSize ∧ tree.get? (name :: directory) ≠ none := by
  obtain ⟨directory, name, slash, rfl, hparent, hsize, hget⟩ := takes
  unfold resolveParent at hparent
  split at hparent
  · cases hparent
  · rename_i hcheck
    cases hsplit : splitFinal p.text with
    | mk before final =>
        simp only [hsplit] at hparent
        split at hparent
        · cases hparent
        · rename_i place hfollow
          cases hparent
          obtain ⟨hcomponents, his, hup⟩ := splitFinal_text h hsplit
          exact ⟨before, name, directory, rfl, hcomponents, his, hup, hcheck, hfollow, hsize,
            hget⟩

theorem resolve_of_takes {tree : Tree} {cwd : Place} {p : Path} {place : Place} (h : p.IsRead)
    (takes : tree.Takes cwd p.text place) : tree.resolve cwd false p.text = .ok place := by
  obtain ⟨before, name, directory, rfl, hcomponents, his, hup, hcheck, hfollow, hsize, hget⟩ :=
    exists_of_takes h takes
  refine resolve_eq_ok.mpr ⟨hcheck, ?_⟩
  rw [hcomponents, follow_snoc his hup]
  exact ⟨directory, hfollow, hsize, hget, rfl⟩

theorem start_lost {place' place : Place} (h : Lost place' place) (text : String) :
    Lost (start place' text) (start place text) := by
  unfold start
  split
  · exact .nothing []
  · exact h

theorem Takes.of_within {tree tree' : Tree} {cwd : Place} {text : String} {place : Place}
    (takes : tree'.Takes cwd text place) (h : tree'.Within tree) : tree.Takes cwd text place := by
  obtain ⟨directory, name, slash, rfl, hparent, hsize, hget⟩ := takes
  refine ⟨directory, name, slash, rfl, ?_, hsize, ?_⟩
  · unfold resolveParent at hparent ⊢
    split at hparent
    · cases hparent
    · simp only at hparent ⊢
      split at hparent
      · cases hparent
      · rename_i hfollow
        rw [follow_of_within h hfollow]
        exact hparent
  · obtain ⟨entry, hentry⟩ := Option.ne_none_iff_exists'.mp hget
    rw [h _ _ hentry]
    exact Option.some_ne_none entry

/-- When the entry that a path names has been removed, whatever else has gone with it, the path
leads nowhere any more. -/
theorem resolve_of_gone {tree tree' : Tree} {cwd cwd' : Place} {p : Path} {place : Place}
    (h : p.IsRead) (takes : tree.Takes cwd p.text place) (within : tree'.Within tree)
    (gone : tree'.get? place = none) (lost : Lost cwd' cwd) (q : Place) :
    tree'.resolve cwd' false p.text ≠ .ok q := by
  intro hresolve
  obtain ⟨before, name, directory, rfl, hcomponents, his, hup, -, hfollow, -, -⟩ :=
    exists_of_takes h takes
  obtain ⟨-, hq⟩ := resolve_eq_ok.mp hresolve
  obtain ⟨q₁, hq₁, hsame⟩ := follow_of_lost (start_lost lost p.text) hq
  rw [hcomponents] at hq hq₁
  -- what is found has no lost name, so it is found from the old current directory, too
  obtain ⟨d, -, -, hget, rfl⟩ := (follow_snoc his hup).mp hq
  have hnamed : "" ∉ name :: d := fun hmem => hget (get?_of_empty_mem _ hmem)
  obtain rfl : name :: d = q₁ := hsame.resolve_right hnamed
  -- and it was found there before the removal
  have hold := follow_of_within within hq₁
  obtain ⟨d₁, hd₁, -, -, heq⟩ := (follow_snoc his hup).mp hold
  obtain rfl : directory = d₁ := Except.ok.inj (hfollow.symm.trans hd₁)
  exact hget (heq ▸ gone)

/-- The places that the removal of a path may take away: the one that the path names, and if the
removal is recursive also those inside a directory that the path names. -/
def Reaches (tree : Tree) (cwd : Place) (text : String) (recursive : Bool) (place : Place) :
    Prop :=
  ∃ named, tree.resolve cwd false text = .ok named ∧
    (place = named ∨
      recursive = true ∧ tree.reached named = .directory ∧ named.below place = true)

/-- A tree that has lost entries at some places and is the same elsewhere. -/
def Loses (tree tree' : Tree) (gone : Place → Prop) : Prop :=
  ∀ place, tree'.get? place = tree.get? place ∨ tree'.get? place = none ∧ gone place

theorem Loses.refl (tree : Tree) (gone : Place → Prop) : tree.Loses tree gone :=
  fun _ => .inl rfl

theorem Loses.trans {tree₁ tree₂ tree₃ : Tree} {gone : Place → Prop} (h : tree₁.Loses tree₂ gone)
    (h' : tree₂.Loses tree₃ gone) : tree₁.Loses tree₃ gone := by
  intro place
  rcases h' place with heq | hgone
  · rw [heq]
    exact h place
  · exact .inr hgone

theorem loses_erase {tree : Tree} {place : Place} (hne : place ≠ []) {gone : Place → Prop}
    (h : gone place) : tree.Loses (tree.erase place) gone := by
  intro q
  rw [get?_erase _ hne]
  split
  · rename_i hq
    exact .inr ⟨rfl, hq ▸ h⟩
  · exact .inl rfl

theorem loses_keep {tree : Tree} (test : Place → Bool) {gone : Place → Prop}
    (h : ∀ q, q ≠ [] → test q = false → gone q) : tree.Loses (tree.keep test) gone := by
  intro q
  by_cases hq : q = []
  · subst hq
    exact .inl rfl
  · rw [get?_keep _ _ hq]
    cases ht : test q with
    | true => exact .inl rfl
    | false => exact .inr ⟨rfl, h q hq ht⟩

theorem Takes.ne_root {tree : Tree} {cwd : Place} {text : String} {place : Place}
    (takes : tree.Takes cwd text place) : place ≠ [] := by
  obtain ⟨directory, name, -, rfl, -⟩ := takes
  exact List.cons_ne_nil name directory

theorem Takes.get?_ne_none {tree : Tree} {cwd : Place} {text : String} {place : Place}
    (takes : tree.Takes cwd text place) : tree.get? place ≠ none := by
  obtain ⟨-, -, -, -, -, -, hget⟩ := takes
  exact hget

/-- A whole directory that has been removed was there under the name of the path, and has gone with
all that lay inside. -/
theorem removeAll_takes {tree tree' : Tree} {cwd : Place} {p : Path} (h : p.IsRead)
    (hok : tree.removeAll cwd p.text = (.ok (), tree')) :
    ∃ place, tree.Takes cwd p.text place ∧ tree.get? place = some .directory ∧
      tree' = (tree.eraseBelow place).erase place := by
  obtain ⟨named, hresolve, -, hrmdir⟩ := removeAll_eq_ok hok
  obtain ⟨place, takes, hget, -, rfl⟩ := rmdir_eq_ok hrmdir
  have within : (tree.eraseBelow named).Within tree := tree.within_keep _
  -- the emptied directory is found where the full one was
  obtain rfl : named = place :=
    Except.ok.inj (hresolve.symm.trans (resolve_of_takes h (takes.of_within within)))
  exact ⟨named, takes.of_within within, within _ _ hget, rfl⟩

end Reclaim.Files.Tree
