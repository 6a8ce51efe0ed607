import Reclaim.Proofs.Files.Creation

/-!
Giving a file its content and moving it over another entry. After the move the file stands where
the path of the target named an entry, and all else is as it was. Paths lead on as before unless
they went through a link in that place: they stop at the file then.
-/

namespace Reclaim.Files.Tree

open Reclaim.Path (isPart)

variable {tree tree' : Tree} {cwd place : Place} {text name : String}

theorem resolve_file {before gap : List String} {content : ByteArray}
    (his : isPart name = true) (hup : name ≠ "..") (hgap : ∀ c ∈ gap, c = "")
    (hcomponents : components text = before ++ name :: gap)
    (hplace : tree.placeOf cwd text = .ok place)
    (hfile : tree.get? place = some (.file content)) :
    tree.resolve cwd true text = if gap = [] then .ok place else .error .notDirectory := by
  have hends : EndsWith text before name := ⟨his, hup, gap, hgap, hcomponents⟩
  obtain ⟨hcheck, hsize, directory, rfl, n, hn, hleads⟩ := (placeOf_eq_ok_of_name hends).mp hplace
  have hscan : tree.scan true directory (name :: gap) =
      if gap = [] then .arrived (name :: directory) else .failed .notDirectory := by
    rw [scan_cons, if_neg (not_skipped his), if_neg hup, if_neg (Nat.not_lt.mpr hsize), hfile]
  have hresolve : tree.resolve cwd true text =
      tree.follow true (maxLinks - n) directory (name :: gap) := by
    rw [resolve, hcheck, hcomponents]
    exact hleads.follow hn (List.cons_ne_nil name gap)
  rw [hresolve]
  split
  · rename_i hnil
    rw [if_pos hnil] at hscan
    exact follow_arrived hscan
  · rename_i hslash
    rw [if_neg hslash] at hscan
    exact follow_failed hscan

/-- A file at the place that a path names gets the content that is written to the path. -/
theorem write_eq_ok {before : List String} {content content' : ByteArray}
    (hends : EndsWith text before name) (hplace : tree.placeOf cwd text = .ok place)
    (hfile : tree.get? place = some (.file content))
    (h : tree.write cwd text content' = .ok tree') (q : Place) :
    tree'.get? q = if q = place then some (.file content') else tree.get? q := by
  obtain ⟨his, hup, gap, hgap, hcomponents⟩ := hends
  have hresolve := resolve_file his hup hgap hcomponents hplace hfile
  have hne : place ≠ [] := by
    rintro rfl
    cases hfile
  have hplain : "" ∉ place := by
    intro hmem
    rw [tree.get?_of_empty_mem hmem] at hfile
    cases hfile
  unfold write at h
  split at hresolve
  · simp only [hresolve, reached, hfile, Option.getD_some, Except.ok.injEq] at h
    rw [← h]
    exact tree.get?_put hne hplain _ q
  · simp only [hresolve] at h
    cases h

/-- An entry that has been moved, which is no directory, stands at the place that the target names,
and no longer at its own. -/
structure Moves (tree : Tree) (cwd : Place) (source target : String) (entry : Entry)
    (origin place : Place) (tree' : Tree) : Prop where
  named : ∃ before name, EndsWith target before name
  located : tree.placeOf cwd source = .ok origin
  placed : tree.placeOf cwd target = .ok place
  taken : tree.get? origin = some entry
  replaced : tree.get? place ≠ some .directory
  moved : ∀ q, tree'.get? q =
    if q = place then some entry else if q = origin then none else tree.get? q

/-- Putting an entry in place of another one that is found under a name in a directory. -/
theorem moves_of_lookup {source target sourceName targetName : String} {entry : Entry}
    {sourceDirectory targetDirectory : Place} {sourceSlash targetSlash : Bool}
    {there : Option Entry}
    (hsource : tree.resolveParent cwd source = .ok (sourceDirectory, .name sourceName sourceSlash))
    (htarget : tree.resolveParent cwd target = .ok (targetDirectory, .name targetName targetSlash))
    (hentry : tree.lookup sourceDirectory sourceName = .ok (some entry))
    (hthere : tree.lookup targetDirectory targetName = .ok there)
    (hno : there ≠ some .directory) (hdirectory : tree.get? targetDirectory ≠ none) :
    tree.Moves cwd source target entry (sourceName :: sourceDirectory)
      (targetName :: targetDirectory)
      ((tree.erase (sourceName :: sourceDirectory)).put (targetName :: targetDirectory) entry) := by
  obtain ⟨before, hends⟩ := resolveParent_eq_ok htarget
  exact {
    named := ⟨before, targetName, hends⟩
    located := placeOf_of_lookup hsource hentry
    placed := placeOf_of_lookup htarget hthere
    taken := (lookup_eq_ok hentry).2
    replaced := (lookup_eq_ok hthere).2 ▸ hno
    moved := fun q => by
      rw [get?_put _ (List.cons_ne_nil _ _) (empty_not_mem hends hdirectory),
        get?_erase _ (List.cons_ne_nil _ _)] }

/-- An entry is moved that is no directory, into a directory that is there, where no directory is. -/
theorem replace_cases {source target : String} (h : tree.replace cwd source target = .ok tree') :
    ∃ sourceDirectory sourceName sourceSlash targetDirectory targetName targetSlash entry there,
      tree.resolveParent cwd source = .ok (sourceDirectory, .name sourceName sourceSlash) ∧
      tree.resolveParent cwd target = .ok (targetDirectory, .name targetName targetSlash) ∧
      tree.lookup sourceDirectory sourceName = .ok (some entry) ∧
      tree.lookup targetDirectory targetName = .ok there ∧
      entry ≠ .directory ∧ there ≠ some .directory ∧ tree.get? targetDirectory ≠ none ∧
      tree' = (tree.erase (sourceName :: sourceDirectory)).put (targetName :: targetDirectory)
        entry := by
  obtain ⟨⟨sourceDirectory, sourceFinal⟩, hsource, h⟩ := bind_eq_ok h
  obtain ⟨⟨targetDirectory, targetFinal⟩, htarget, h⟩ := bind_eq_ok h
  cases sourceFinal with
  | name sourceName sourceSlash =>
      cases targetFinal with
      | name targetName targetSlash =>
          obtain ⟨found, hfound, h⟩ := bind_eq_ok h
          cases found with
          | none => cases h
          | some entry =>
              have h : entry ≠ .directory ∧ (do
                  let there ← tree.lookup targetDirectory targetName
                  if sourceSlash || targetSlash then .error .notDirectory
                  else if there = some .directory then .error .isDirectory
                  else if tree.get? targetDirectory = none then .error .missing
                  else .ok ((tree.erase (sourceName :: sourceDirectory)).put
                    (targetName :: targetDirectory) entry)) = Except.ok tree' := by
                cases entry with
                | directory => cases h
                | file content => exact ⟨by simp, h⟩
                | link target => exact ⟨by simp, h⟩
              obtain ⟨hentry, h⟩ := h
              obtain ⟨there, hthere, h⟩ := bind_eq_ok h
              split at h
              · cases h
              · split at h
                · cases h
                · split at h
                  · cases h
                  · rename_i hno hdirectory
                    cases h
                    exact ⟨_, _, _, _, _, _, _, _, hsource, htarget, hfound, hthere, hentry, hno,
                      hdirectory, rfl⟩
      | _ => cases h
  | _ => cases targetFinal <;> cases h

theorem replace_eq_ok {source target : String}
    (h : tree.replace cwd source target = .ok tree') :
    ∃ entry origin place, tree.Moves cwd source target entry origin place tree' := by
  obtain ⟨sourceDirectory, sourceName, _, targetDirectory, targetName, _, entry, there, hsource,
    htarget, hentry, hthere, -, hno, hdirectory, rfl⟩ := replace_cases h
  exact ⟨entry, _, _, moves_of_lookup hsource htarget hentry hthere hno hdirectory⟩

/-- Writing to a file that has just been made is making it with that content. -/
theorem Makes.write {tree₁ : Tree} {content content' : ByteArray}
    (makes : tree.Makes cwd text (.file content) place tree₁)
    (h : tree₁.write cwd text content' = .ok tree') :
    tree.Makes cwd text (.file content') place tree' where
  named := makes.named
  placed := makes.placed
  vacant := makes.vacant
  made := by
    obtain ⟨before, name, hends⟩ := makes.named
    have hfile : tree₁.get? place = some (.file content) := by rw [makes.made, if_pos rfl]
    intro q
    rw [write_eq_ok hends (placeOf_within makes.within rfl makes.placed) hfile h, makes.made]
    split <;> rfl

/-- A file stands where a path names it, in place of what was there, and all else is as it was. -/
structure Installs (tree : Tree) (cwd : Place) (text : String) (content : ByteArray)
    (place : Place) (tree' : Tree) : Prop where
  named : ∃ before name, EndsWith text before name
  placed : tree.placeOf cwd text = .ok place
  replaced : tree.get? place ≠ some .directory
  installed : ∀ q, tree'.get? q = if q = place then some (.file content) else tree.get? q

theorem Installs.directory {content : ByteArray}
    (installs : tree.Installs cwd text content place tree') (p : Place)
    (h : tree.get? p = some .directory) : tree'.get? p = some .directory := by
  rw [installs.installed, if_neg (by rintro rfl; exact installs.replaced h), h]

/-- Making a file and moving it to another path leaves nothing of the first path. -/
theorem Makes.installs {tree₁ : Tree} {source target : String} {content : ByteArray}
    {entry : Entry} {made origin : Place}
    (makes : tree.Makes cwd source (.file content) made tree₁)
    (moves : tree₁.Moves cwd source target entry origin place tree') :
    tree.Installs cwd target content place tree' := by
  have hfile : tree₁.get? made = some (.file content) := by rw [makes.made, if_pos rfl]
  obtain rfl : made = origin := Except.ok.inj
    ((placeOf_within makes.within rfl makes.placed).symm.trans moves.located)
  obtain rfl : .file content = entry := Option.some.inj (hfile.symm.trans moves.taken)
  -- the file that was made is in no path's way
  have hways : tree₁.WaysWithin tree := by
    constructor
    · intro r hget
      rw [makes.made] at hget
      split at hget
      · cases hget
      · exact hget
    · intro r target hget
      rw [makes.made] at hget
      split at hget
      · cases hget
      · exact hget
  exact {
    named := moves.named
    placed := placeOf_along hways rfl moves.placed
    replaced := fun hget => moves.replaced (makes.within _ _ hget)
    installed := fun q => by
      rw [moves.moved]
      by_cases hq : q = place
      · rw [if_pos hq, if_pos hq]
      · rw [if_neg hq, if_neg hq]
        by_cases hmade : q = made
        · rw [if_pos hmade, hmade, makes.vacant]
        · rw [if_neg hmade, makes.made, if_neg hmade] }

/-- Where a file has taken the place of another entry, that is no directory, a walk goes on as
without that entry, or it stops at the file. -/
theorem Leads.stops {p q : Place} {names : List String} {n : Nat} {content : ByteArray}
    (h : tree.Leads p names n q) (hfile : tree'.get? place = some (.file content))
    (hsame : ∀ r, r ≠ place → tree'.get? r = tree.get? r)
    (hreplaced : tree.get? place ≠ some .directory) :
    (tree.erase place).Leads p names n q ∨
      ∀ {links more}, n ≤ links → more ≠ [] →
        tree'.follow true links p (names ++ more) = .error .notDirectory := by
  have hne : place ≠ [] := by
    rintro rfl
    exact hreplaced rfl
  have hkept : ∀ {r entry}, r ≠ place → tree.get? r = some entry →
      (tree.erase place).get? r = some entry := by
    intro r entry hr hget
    rw [tree.get?_erase hne, if_neg hr, hget]
  have hwithin : (tree.erase place).Within tree' := by
    intro r entry hget
    rw [tree.get?_erase hne] at hget
    split at hget
    · cases hget
    · rename_i hr
      rw [hsame r hr, hget]
  induction h with
  | done r => exact .inl (.done r)
  | skip his rest ih =>
      rcases ih with hleads | hstops
      · exact .inl (.skip his hleads)
      · right
        intro links more hn hmore
        rw [List.cons_append, follow_skip his]
        exact hstops hn hmore
  | up rest ih =>
      rcases ih with hleads | hstops
      · exact .inl (.up hleads)
      · right
        intro links more hn hmore
        rw [List.cons_append, follow_up]
        exact hstops hn hmore
  | @enter p r name names n his hup size there rest ih =>
      have hr : name :: p ≠ place := by
        rintro rfl
        exact hreplaced there
      rcases ih with hleads | hstops
      · exact .inl (.enter his hup size (hkept hr there) hleads)
      · right
        intro links more hn hmore
        rw [List.cons_append, follow_directory his hup size ((hsame _ hr).trans there)]
        exact hstops hn hmore
  | @link p r s name target names m n his hup size there way rest ihway ihrest =>
      by_cases hr : name :: p = place
      · -- the link has become the file
        right
        intro links more hn hmore
        have hmore' : names ++ more ≠ [] := by simp [hmore]
        rw [List.cons_append, follow_failed]
        rw [scan_cons, if_neg (not_skipped his), if_neg hup, if_neg (Nat.not_lt.mpr size), hr,
          hfile]
        exact if_neg hmore'
      · have hlink : ∀ {links more}, more ≠ [] →
            tree'.follow true (links + 1) p (name :: (names ++ more)) =
              tree'.follow true links (start p target) (components target ++ (names ++ more)) :=
          fun hmore => follow_link_succ (scan_link his hup size ((hsame _ hr).trans there)
            (by simp [hmore]))
        rcases ihway with hway | hstops
        · rcases ihrest with hrest | hstops
          · exact .inl (.link his hup size (hkept hr there) hway hrest)
          · right
            intro links more hn hmore
            obtain ⟨left, rfl⟩ : ∃ left, links = left + 1 := ⟨links - 1, by omega⟩
            rw [List.cons_append, hlink hmore,
              (hway.within hwithin).follow (by omega) (by simp [hmore])]
            exact hstops (by omega) hmore
        · right
          intro links more hn hmore
          obtain ⟨left, rfl⟩ : ∃ left, links = left + 1 := ⟨links - 1, by omega⟩
          rw [List.cons_append, hlink hmore]
          exact hstops (by omega) (by simp [hmore])

/-- A path of which only the final name leads through the place where a file has been put leads to
the file. A path whose directory is reached through that place leads nowhere. -/
theorem Installs.resolve {before : List String} {content : ByteArray}
    (installs : tree.Installs cwd text content place tree') (his : isPart name = true)
    (hup : name ≠ "..") (hcomponents : components text = before ++ [name]) :
    (tree.erase place).placeOf cwd text = .ok place ∧ tree'.resolve cwd true text = .ok place ∨
      (tree.erase place).placeOf cwd text ≠ .ok place ∧
        tree'.resolve cwd true text = .error .notDirectory := by
  have hnone : ∀ c ∈ ([] : List String), c = "" := by simp
  have hends : EndsWith text before name := ⟨his, hup, [], hnone, hcomponents⟩
  have hfile : tree'.get? place = some (.file content) := by
    rw [installs.installed, if_pos rfl]
  have hsame : ∀ r, r ≠ place → tree'.get? r = tree.get? r := by
    intro r hr
    rw [installs.installed, if_neg hr]
  by_cases hwithout : (tree.erase place).placeOf cwd text = .ok place
  · left
    have hwithin : (tree.erase place).Within tree' := by
      intro r entry hget
      have hr : r ≠ place := by
        rintro rfl
        rw [tree.get?_erase (by rintro rfl; exact installs.replaced rfl), if_pos rfl] at hget
        cases hget
      rw [hsame r hr]
      exact tree.within_keep _ _ _ hget
    refine ⟨hwithout, ?_⟩
    exact resolve_file his hup hnone hcomponents (placeOf_within hwithin rfl hwithout) hfile
  · refine .inr ⟨hwithout, ?_⟩
    obtain ⟨hcheck, hsize, directory, hdirectory, n, hn, hleads⟩ :=
      (placeOf_eq_ok_of_name hends).mp installs.placed
    rcases hleads.stops hfile hsame installs.replaced with hleads | hstops
    · exact absurd ((placeOf_eq_ok_of_name hends).mpr
        ⟨hcheck, hsize, directory, hdirectory, n, hn, hleads⟩) hwithout
    · rw [Tree.resolve, hcheck, hcomponents]
      exact hstops hn (List.cons_ne_nil name [])

theorem Installs.placeOf_erase {content : ByteArray}
    (installs : tree.Installs cwd text content place tree')
    (hlink : ∀ target, tree.get? place ≠ some (.link target)) :
    (tree.erase place).placeOf cwd text = .ok place := by
  have hne : place ≠ [] := by
    rintro rfl
    exact installs.replaced rfl
  have hways : tree.WaysWithin (tree.erase place) := by
    constructor
    · intro r hget
      rw [tree.get?_erase hne, if_neg (by rintro rfl; exact installs.replaced hget), hget]
    · intro r target hget
      rw [tree.get?_erase hne, if_neg (by rintro rfl; exact hlink target hget), hget]
  exact Tree.placeOf_along hways rfl installs.placed

end Reclaim.Files.Tree
