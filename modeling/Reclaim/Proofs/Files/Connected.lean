import Reclaim.Proofs.Files.Replacement

/-!
Trees without gaps. Every entry lies in a directory, so that nothing lies below a place where
nothing is, nor below a file or a link. Each change keeps a tree so: an entry is put only into a
directory that is there, and is erased only when nothing lies inside, or with all that does.
-/

namespace Reclaim.Files

namespace Place

variable {place around : Place} {inner : String}

theorem below_cons_self : around.below (inner :: around) = true :=
  below_iff.mpr ⟨[inner], List.cons_ne_nil _ _, rfl⟩

theorem below_cons (hbelow : place.below around = true) : place.below (inner :: around) = true := by
  obtain ⟨names, -, rfl⟩ := below_iff.mp hbelow
  exact below_iff.mpr ⟨inner :: names, List.cons_ne_nil _ _, rfl⟩

theorem below_of_cons (hbelow : below (inner :: around) place = true) :
    around.below place = true := by
  obtain ⟨names, -, rfl⟩ := below_iff.mp hbelow
  refine below_iff.mpr ⟨names ++ [inner], List.append_ne_nil_of_right_ne_nil _ nofun, ?_⟩
  rw [List.append_assoc, List.singleton_append]

end Place

namespace Tree

variable {tree tree' : Tree} {cwd place directory : Place} {text name : String}

/-- Every entry lies in a directory. -/
def Connected (tree : Tree) : Prop :=
  ∀ name directory, tree.get? (name :: directory) ≠ none → tree.get? directory = some .directory

theorem connected_empty : Tree.empty.Connected := by
  intro name directory h
  exact absurd rfl h

namespace Connected

theorem directory_of_below (h : tree.Connected) {q : Place} (hbelow : place.below q = true)
    (hget : tree.get? q ≠ none) : tree.get? place = some .directory := by
  obtain ⟨names, hnames, rfl⟩ := Place.below_iff.mp hbelow
  clear hbelow
  induction names with
  | nil => exact absurd rfl hnames
  | cons name names ih =>
      have hdirectory := h name (names ++ place) hget
      cases names with
      | nil => exact hdirectory
      | cons other names => exact ih (List.cons_ne_nil _ _) (hdirectory ▸ Option.some_ne_none _)

theorem vacant_below (h : tree.Connected) (hvacant : tree.get? place = none) {q : Place}
    (hbelow : place.below q = true) : tree.get? q = none := by
  by_contra hget
  rw [h.directory_of_below hbelow hget] at hvacant
  cases hvacant

theorem isBare (h : tree.Connected) (hno : tree.get? place ≠ some .directory) :
    tree.isBare place = true := by
  rw [isBare_iff]
  intro q hbelow
  by_contra hget
  exact hno (h.directory_of_below hbelow hget)

theorem detach_tail (h : tree.Connected) (settled : tree.detach place = place) :
    tree.detach place.tail = place.tail := by
  cases place with
  | nil => rfl
  | cons name around =>
      unfold detach at settled
      split at settled
      · rename_i hget
        exact detach_of_get? (h name around (by simp [hget]))
      · exact (List.cons.inj settled).2

/-- An entry other than a directory is replaced, or a new one is put into a directory. -/
theorem put (h : tree.Connected) (hdirectory : tree.get? directory = some .directory)
    (hno : tree.get? (name :: directory) ≠ some .directory) (hplain : "" ∉ name :: directory)
    (entry : Entry) : (tree.put (name :: directory) entry).Connected := by
  intro inner around hget
  rw [get?_put _ (List.cons_ne_nil name directory) hplain] at hget ⊢
  by_cases hinner : inner :: around = name :: directory
  · obtain ⟨rfl, rfl⟩ := List.cons.inj hinner
    rw [if_neg (by simp), hdirectory]
  · rw [if_neg hinner] at hget
    have haround := h inner around hget
    rw [if_neg, haround]
    rintro rfl
    exact hno haround

theorem erase (h : tree.Connected) (hne : place ≠ []) (hbare : tree.isBare place = true) :
    (tree.erase place).Connected := by
  rw [isBare_iff] at hbare
  intro inner around hget
  rw [get?_erase _ hne] at hget ⊢
  by_cases hinner : inner :: around = place
  · exact absurd (if_pos hinner) hget
  · rw [if_neg hinner] at hget
    rw [if_neg, h inner around hget]
    rintro rfl
    exact hget (hbare _ Place.below_cons_self)

theorem keep (h : tree.Connected) {test : Place → Bool}
    (houter : ∀ inner around, test (inner :: around) = true → test around = true) :
    (tree.keep test).Connected := by
  intro inner around hget
  rw [get?_keep _ _ (List.cons_ne_nil inner around)] at hget
  by_cases htest : test (inner :: around) = true
  · rw [if_pos htest] at hget
    by_cases hroot : around = []
    · rw [hroot, get?_root]
    · rw [get?_keep _ _ hroot, if_pos (houter inner around htest), h inner around hget]
  · exact absurd (if_neg htest) hget

theorem eraseBelow (h : tree.Connected) (place : Place) : (tree.eraseBelow place).Connected := by
  refine h.keep fun inner around htest => ?_
  simp only [Bool.not_eq_true'] at htest ⊢
  rw [Bool.eq_false_iff] at htest ⊢
  exact fun hbelow => htest (Place.below_cons hbelow)

theorem eraseBelowBut (h : tree.Connected) (place : Place) (spared : List Place) :
    (tree.eraseBelowBut place spared).Connected := by
  refine h.keep fun inner around htest => ?_
  cases hbelow : place.below around with
  | false => rfl
  | true =>
      -- the entry inside is spared, or around one that is, and so is this one around it
      rw [Place.below_cons hbelow, Bool.not_true, Bool.false_or, List.any_eq_true] at htest
      obtain ⟨s, hs, hspared⟩ := htest
      rw [Bool.not_true, Bool.false_or, List.any_eq_true]
      refine ⟨s, hs, ?_⟩
      have haround : Place.below around s = true := by
        rcases (Bool.or_eq_true _ _).mp hspared with heq | hinner
        · rw [← of_decide_eq_true heq]
          exact Place.below_cons_self
        · exact Place.below_of_cons hinner
      rw [haround, Bool.or_true]

end Connected

theorem detach_start (settled : tree.detach cwd = cwd) (text : String) :
    tree.detach (start cwd text) = start cwd text := by
  unfold start
  split
  · rfl
  · exact settled

theorem Leads.settled {names : List String} {n : Nat} {q : Place}
    (h : tree.Leads place names n q) (connected : tree.Connected)
    (settled : tree.detach place = place) : tree.detach q = q := by
  induction h with
  | done => exact settled
  | skip his rest ih => exact ih settled
  | up rest ih => exact ih (connected.detach_tail settled)
  | enter his hup size there rest ih => exact ih (detach_of_get? there)
  | link his hup size there way rest ihway ihrest => exact ihrest (ihway (detach_start settled _))

theorem directory_of_detach (settled : tree.detach place = place) (hget : tree.get? place ≠ none) :
    tree.get? place = some .directory := by
  cases place with
  | nil => rfl
  | cons name around =>
      unfold detach at settled
      split at settled
      · assumption
      · obtain ⟨rfl, -⟩ := List.cons.inj settled
        exact absurd (tree.get?_of_empty_mem List.mem_cons_self) hget

/-- Where the final component of a path is to be found is a directory, if anything. -/
theorem directory_of_resolveParent {final : Final} (connected : tree.Connected)
    (settled : tree.detach cwd = cwd)
    (h : tree.resolveParent cwd text = .ok (directory, final))
    (hdirectory : tree.get? directory ≠ none) : tree.get? directory = some .directory := by
  unfold resolveParent at h
  split at h
  · cases h
  · simp only at h
    split at h
    · cases h
    · rename_i hfollow
      cases h
      obtain ⟨n, -, hleads⟩ := follow_eq_ok_iff.mp hfollow
      exact directory_of_detach (hleads.settled connected (detach_start settled text)) hdirectory

section changes

variable (connected : tree.Connected) (settled : tree.detach cwd = cwd)

include connected settled

theorem connected_of_putNew {entry : Entry} {slash : Bool}
    (hparent : tree.resolveParent cwd text = .ok (directory, .name name slash))
    (hput : tree.putNew directory name entry = .ok tree') : tree'.Connected := by
  obtain ⟨found, hlookup, hput⟩ := bind_eq_ok hput
  cases found with
  | some there => cases hput
  | none =>
      simp only at hput
      split at hput
      · cases hput
      · rename_i hdirectory
        cases hput
        obtain ⟨before, hends⟩ := resolveParent_eq_ok hparent
        exact connected.put (directory_of_resolveParent connected settled hparent hdirectory)
          (by simp [(lookup_eq_ok hlookup).2]) (empty_not_mem hends hdirectory) entry

theorem connected_of_mkdir (h : tree.mkdir cwd text = .ok tree') : tree'.Connected := by
  obtain ⟨⟨directory, final⟩, hparent, h⟩ := bind_eq_ok h
  cases final with
  | name name slash => exact connected_of_putNew connected settled hparent h
  | _ => cases h

theorem connected_of_create (h : tree.create cwd text = .ok tree') : tree'.Connected := by
  obtain ⟨⟨directory, final⟩, hparent, h⟩ := bind_eq_ok h
  cases final with
  | name name slash =>
      cases slash with
      | true => cases h
      | false => exact connected_of_putNew connected settled hparent h
  | _ => cases h

theorem connected_of_symlink {target : String} (h : tree.symlink cwd target text = .ok tree') :
    tree'.Connected := by
  obtain ⟨_, -, h⟩ := bind_eq_ok h
  obtain ⟨⟨directory, final⟩, hparent, h⟩ := bind_eq_ok h
  cases final with
  | name name slash =>
      cases slash with
      | true => cases h
      | false => exact connected_of_putNew connected settled hparent h
  | _ => cases h

theorem connected_of_write {content : ByteArray} (h : tree.write cwd text content = .ok tree') :
    tree'.Connected := by
  unfold write at h
  split at h
  · rename_i place hresolve
    cases hget : tree.get? place with
    | none => simp [reached, hget] at h
    | some entry =>
        cases entry with
        | directory => simp [reached, hget] at h
        | _ =>
            cases place with
            | nil => cases hget
            | cons name directory =>
                have hplain : "" ∉ name :: directory := by
                  intro hmem
                  rw [tree.get?_of_empty_mem hmem] at hget
                  cases hget
                simp only [reached, hget, Option.getD_some, Except.ok.injEq] at h
                rw [← h]
                exact connected.put (connected name directory (by simp [hget])) (by simp [hget])
                  hplain _
  · obtain ⟨⟨directory, final⟩, hparent, h⟩ := bind_eq_ok h
    cases final with
    | name name slash =>
        cases slash with
        | true => cases h
        | false => exact connected_of_putNew connected settled hparent h
    | _ => cases h
  · cases h

omit settled in
theorem connected_of_unlink (h : tree.unlink cwd text = .ok tree') : tree'.Connected := by
  obtain ⟨⟨directory, final⟩, hparent, h⟩ := bind_eq_ok h
  cases final with
  | name name slash =>
      obtain ⟨found, hlookup, h⟩ := bind_eq_ok h
      have hget := (lookup_eq_ok hlookup).2
      cases found with
      | none => cases h
      | some entry =>
          cases entry with
          | directory => cases h
          | _ =>
              cases slash with
              | true => cases h
              | false =>
                  cases h
                  exact connected.erase (List.cons_ne_nil _ _) (connected.isBare (by simp [hget]))
  | _ => cases h

omit settled in
theorem connected_of_rmdir (h : tree.rmdir cwd text = .ok tree') : tree'.Connected := by
  obtain ⟨⟨directory, final⟩, hparent, h⟩ := bind_eq_ok h
  cases final with
  | name name slash =>
      obtain ⟨found, hlookup, h⟩ := bind_eq_ok h
      cases found with
      | none => cases h
      | some entry =>
          cases entry with
          | directory =>
              simp only at h
              split at h
              · rename_i hbare
                cases h
                exact connected.erase (List.cons_ne_nil _ _) hbare
              · cases h
          | _ => cases h
  | _ => cases h

omit settled in
theorem connected_removeAll (cwd : Place) (text : String) :
    (tree.removeAll cwd text).2.Connected := by
  cases hremove : tree.removeAll cwd text with
  | mk answer tree' =>
      cases answer with
      | ok _ =>
          obtain ⟨place, -, -, hrmdir⟩ := removeAll_eq_ok hremove
          exact connected_of_rmdir (connected.eraseBelow place) hrmdir
      | error reason =>
          rcases removeAll_eq_error hremove with rfl | ⟨place, -, -, rfl⟩
          · exact connected
          · exact connected.eraseBelow place

theorem connected_of_replace {source target : String}
    (h : tree.replace cwd source target = .ok tree') : tree'.Connected := by
  obtain ⟨sourceDirectory, sourceName, _, targetDirectory, targetName, _, entry, there, hsource,
    htarget, hentry, hthere, hno, hreplaced, hdirectory, rfl⟩ := replace_cases h
  obtain ⟨before, hends⟩ := resolveParent_eq_ok htarget
  have hne : sourceName :: sourceDirectory ≠ [] := List.cons_ne_nil _ _
  -- the directory that the entry is moved into is not the entry itself
  have htaken : tree.get? (sourceName :: sourceDirectory) ≠ some .directory := by
    rw [(lookup_eq_ok hentry).2]
    exact fun hget => hno (Option.some.inj hget)
  have haround : tree.get? targetDirectory = some .directory :=
    directory_of_resolveParent connected settled htarget hdirectory
  refine (connected.erase hne (connected.isBare htaken)).put ?_ ?_
    (empty_not_mem hends hdirectory) entry
  · rw [get?_erase _ hne, if_neg, haround]
    rintro rfl
    exact htaken haround
  · rw [get?_erase _ hne]
    split
    · nofun
    · rw [(lookup_eq_ok hthere).2]
      exact hreplaced

end changes

end Tree
end Reclaim.Files
