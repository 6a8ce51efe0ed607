import Reclaim.Proofs.Files.Walk

/-!
Walks to directories as a relation. Names lead from one place to another if each of them is passed
over, goes up, enters a directory or is a link whose target leads on; the number counts the links
followed on the way. The relation says of a whole walk what `scan` and `follow` compute piece by
piece, so that walks can be put together, taken apart and compared by induction.
-/

namespace Reclaim.Files.Tree

open Reclaim.Path (isPart)

inductive Leads (tree : Tree) : Place → List String → Nat → Place → Prop
  | done (place : Place) : Leads tree place [] 0 place
  | skip {place q : Place} {name : String} {names : List String} {n : Nat}
      (his : isPart name = false) (rest : Leads tree place names n q) :
      Leads tree place (name :: names) n q
  | up {place q : Place} {names : List String} {n : Nat}
      (rest : Leads tree place.tail names n q) : Leads tree place (".." :: names) n q
  | enter {place q : Place} {name : String} {names : List String} {n : Nat}
      (his : isPart name = true) (hup : name ≠ "..") (size : name.utf8ByteSize ≤ maxNameSize)
      (there : tree.get? (name :: place) = some .directory)
      (rest : Leads tree (name :: place) names n q) : Leads tree place (name :: names) n q
  | link {place r q : Place} {name target : String} {names : List String} {m n : Nat}
      (his : isPart name = true) (hup : name ≠ "..") (size : name.utf8ByteSize ≤ maxNameSize)
      (there : tree.get? (name :: place) = some (.link target))
      (way : Leads tree (start place target) (components target) m r)
      (rest : Leads tree r names n q) : Leads tree place (name :: names) (m + 1 + n) q

section follow

variable {tree : Tree} {followLast : Bool} {links : Nat} {place : Place} {name : String}
  {rest : List String}

theorem not_skipped (his : isPart name = true) : ¬(name = "" ∨ name = ".") := by
  simpa [isPart, not_or] using his

theorem follow_skip (his : isPart name = false) :
    tree.follow followLast links place (name :: rest) =
      tree.follow followLast links place rest := by
  rw [follow, tree.scan_skip followLast place rest his, ← follow]

theorem follow_up :
    tree.follow followLast links place (".." :: rest) =
      tree.follow followLast links place.tail rest := by
  rw [follow, scan_cons, if_neg (by decide), if_pos rfl, ← follow]

theorem follow_directory (his : isPart name = true) (hup : name ≠ "..")
    (size : name.utf8ByteSize ≤ maxNameSize)
    (there : tree.get? (name :: place) = some .directory) :
    tree.follow followLast links place (name :: rest) =
      tree.follow followLast links (name :: place) rest := by
  rw [follow, scan_cons, if_neg (not_skipped his), if_neg hup, if_neg (Nat.not_lt.mpr size), there,
    ← follow]

theorem scan_link (his : isPart name = true) (hup : name ≠ "..")
    (size : name.utf8ByteSize ≤ maxNameSize) {target : String}
    (there : tree.get? (name :: place) = some (.link target)) (hrest : rest ≠ []) :
    tree.scan followLast place (name :: rest) = .link place target rest := by
  rw [scan_cons, if_neg (not_skipped his), if_neg hup, if_neg (Nat.not_lt.mpr size), there]
  exact if_neg fun h => hrest h.1

theorem follow_empty : tree.follow followLast links place [""] = .ok place :=
  follow_arrived rfl

theorem Leads.follow {names : List String} {n : Nat} {q : Place}
    (h : tree.Leads place names n q) (hlinks : n ≤ links) {more : List String}
    (hmore : more ≠ []) :
    tree.follow followLast links place (names ++ more) =
      tree.follow followLast (links - n) q more := by
  -- on the names that are walked first; behind a link the walk goes over the target as well
  induction h generalizing links more with
  | done => rfl
  | skip his rest ih =>
      rw [List.cons_append, follow_skip his]
      exact ih hlinks hmore
  | up rest ih =>
      rw [List.cons_append, follow_up]
      exact ih hlinks hmore
  | enter his hup size there rest ih =>
      rw [List.cons_append, follow_directory his hup size there]
      exact ih hlinks hmore
  | @link place r q name target names m n his hup size there way rest ihway ihrest =>
      obtain ⟨left, rfl⟩ : ∃ left, links = left + 1 := ⟨links - 1, by omega⟩
      have hmore' : names ++ more ≠ [] := by simp [hmore]
      rw [List.cons_append, follow_link_succ (scan_link his hup size there hmore'),
        ihway (by omega) hmore', ihrest (by omega) hmore]
      congr 1
      omega

end follow

section

variable {tree : Tree} {place q r : Place} {names names' : List String} {m n : Nat}

theorem Leads.append (h : tree.Leads place names m r) (h' : tree.Leads r names' n q) :
    tree.Leads place (names ++ names') (m + n) q := by
  induction h with
  | done => rwa [Nat.zero_add]
  | skip his rest ih => exact .skip his (ih h')
  | up rest ih => exact .up (ih h')
  | enter his hup size there rest ih => exact .enter his hup size there (ih h')
  | link his hup size there way rest ihway ihrest =>
      rw [List.cons_append, Nat.add_assoc]
      exact .link his hup size there way (ihrest h')

theorem Leads.split (h : tree.Leads place (names ++ names') n q) :
    ∃ m k r, tree.Leads place names m r ∧ tree.Leads r names' k q ∧ n = m + k := by
  induction names generalizing place n with
  | nil => exact ⟨0, n, place, .done place, h, (Nat.zero_add n).symm⟩
  | cons name names ih =>
      cases h with
      | skip his rest =>
          obtain ⟨m, k, r, hfirst, hsecond, rfl⟩ := ih rest
          exact ⟨m, k, r, .skip his hfirst, hsecond, rfl⟩
      | up rest =>
          obtain ⟨m, k, r, hfirst, hsecond, rfl⟩ := ih rest
          exact ⟨m, k, r, .up hfirst, hsecond, rfl⟩
      | enter his hup size there rest =>
          obtain ⟨m, k, r, hfirst, hsecond, rfl⟩ := ih rest
          exact ⟨m, k, r, .enter his hup size there hfirst, hsecond, rfl⟩
      | @link _ _ _ _ _ _ m₀ _ his hup size there way rest =>
          obtain ⟨m, k, r, hfirst, hsecond, rfl⟩ := ih rest
          exact ⟨m₀ + 1 + m, k, r, .link his hup size there way hfirst, hsecond, by omega⟩

theorem Leads.unique (h : tree.Leads place names m q) (h' : tree.Leads place names n r) :
    q = r := by
  -- both are answers of one walk, given enough links
  have hnone : [""] ≠ [] := List.cons_ne_nil "" []
  have hq : tree.follow true (max m n) place (names ++ [""]) = tree.follow true _ q [""] :=
    h.follow (Nat.le_max_left m n) hnone
  have hr : tree.follow true (max m n) place (names ++ [""]) = tree.follow true _ r [""] :=
    h'.follow (Nat.le_max_right m n) hnone
  rw [hq, follow_empty, follow_empty] at hr
  exact Except.ok.inj hr

/-- A tree whose directories and links are all in another one; files lead nowhere. -/
structure WaysWithin (tree tree' : Tree) : Prop where
  directory : ∀ p, tree.get? p = some .directory → tree'.get? p = some .directory
  link : ∀ p target, tree.get? p = some (.link target) → tree'.get? p = some (.link target)

theorem Within.ways {tree' : Tree} (h : tree.Within tree') : tree.WaysWithin tree' :=
  ⟨fun p => h p _, fun p _ => h p _⟩

/-- A walk goes the same way where the directories and links are the same. -/
theorem Leads.along {tree' : Tree} (h : tree.Leads place names n q) (hways : tree.WaysWithin tree') :
    tree'.Leads place names n q := by
  induction h with
  | done place => exact .done place
  | skip his rest ih => exact .skip his ih
  | up rest ih => exact .up ih
  | enter his hup size there rest ih => exact .enter his hup size (hways.directory _ there) ih
  | link his hup size there way rest ihway ihrest =>
      exact .link his hup size (hways.link _ _ there) ihway ihrest

/-- A walk goes the same way in a larger tree. -/
theorem Leads.within {tree' : Tree} (h : tree.Leads place names n q) (hsub : tree.Within tree') :
    tree'.Leads place names n q :=
  h.along hsub.ways

theorem leads_filter :
    tree.Leads place (names.filter isPart) n q ↔ tree.Leads place names n q := by
  constructor
  · intro h
    induction names generalizing place n with
    | nil => exact h
    | cons name names ih =>
        cases his : isPart name with
        | false =>
            rw [List.filter_cons_of_neg (by simp [his])] at h
            exact .skip his (ih h)
        | true =>
            rw [List.filter_cons_of_pos his] at h
            cases h with
            | skip his' rest => simp [his] at his'
            | up rest => exact .up (ih rest)
            | enter _ hup size there rest => exact .enter his hup size there (ih rest)
            | link _ hup size there way rest => exact .link his hup size there way (ih rest)
  · intro h
    induction h with
    | done place => exact .done place
    | skip his rest ih => rwa [List.filter_cons_of_neg (by simp [his])]
    | up rest ih => exact .up ih
    | enter his hup size there rest ih =>
        rw [List.filter_cons_of_pos his]
        exact .enter his hup size there ih
    | link his hup size there way rest ihway ihrest =>
        rw [List.filter_cons_of_pos his]
        exact .link his hup size there way ihrest

theorem scan_leads (tree : Tree) (place : Place) (names : List String) :
    (∃ q, tree.scan true place (names ++ [""]) = .arrived q ∧ tree.Leads place names 0 q) ∨
      (∃ reason, tree.scan true place (names ++ [""]) = .failed reason) ∨
      ∃ directory target rest,
        tree.scan true place (names ++ [""]) = .link directory target (rest ++ [""]) ∧
        ∀ {m n r q}, tree.Leads (start directory target) (components target) m r →
          tree.Leads r rest n q → tree.Leads place names (m + 1 + n) q := by
  induction names generalizing place with
  | nil => exact .inl ⟨place, rfl, .done place⟩
  | cons name names ih =>
      rw [List.cons_append]
      cases his : isPart name with
      | false =>
          rw [tree.scan_skip true place _ his]
          rcases ih place with ⟨q, hq, h⟩ | hfail | ⟨d, target, rest, hlink, h⟩
          · exact .inl ⟨q, hq, .skip his h⟩
          · exact .inr (.inl hfail)
          · exact .inr (.inr ⟨d, target, rest, hlink, fun hway hrest => .skip his (h hway hrest)⟩)
      | true =>
          rw [scan_cons, if_neg (not_skipped his)]
          by_cases hup : name = ".."
          · subst hup
            rw [if_pos rfl]
            rcases ih place.tail with ⟨q, hq, h⟩ | hfail | ⟨d, target, rest, hlink, h⟩
            · exact .inl ⟨q, hq, .up h⟩
            · exact .inr (.inl hfail)
            · exact .inr (.inr ⟨d, target, rest, hlink, fun hway hrest => .up (h hway hrest)⟩)
          · rw [if_neg hup]
            by_cases hsize : maxNameSize < name.utf8ByteSize
            · rw [if_pos hsize]
              exact .inr (.inl ⟨_, rfl⟩)
            · rw [if_neg hsize]
              have size := Nat.not_lt.mp hsize
              cases hget : tree.get? (name :: place) with
              | none => exact .inr (.inl ⟨_, rfl⟩)
              | some entry =>
                  cases entry with
                  | file content => exact .inr (.inl ⟨.notDirectory, by simp⟩)
                  | directory =>
                      rcases ih (name :: place) with
                        ⟨q, hq, h⟩ | hfail | ⟨d, target, rest, hlink, h⟩
                      · exact .inl ⟨q, hq, .enter his hup size hget h⟩
                      · exact .inr (.inl hfail)
                      · exact .inr (.inr ⟨d, target, rest, hlink,
                          fun hway hrest => .enter his hup size hget (h hway hrest)⟩)
                  | link target =>
                      exact .inr (.inr ⟨place, target, names, by simp,
                        fun hway hrest => .link his hup size hget hway hrest⟩)

/-- The walk to a directory arrives exactly if the names lead there over no more links than may be
followed. -/
theorem follow_eq_ok_iff {links : Nat} :
    tree.follow true links place (names ++ [""]) = .ok q ↔
      ∃ n ≤ links, tree.Leads place names n q := by
  constructor
  · intro h
    induction links generalizing place names with
    | zero =>
        rcases tree.scan_leads place names with
          ⟨r, hr, hleads⟩ | ⟨reason, hfail⟩ | ⟨d, target, rest, hlink, -⟩
        · rw [follow_arrived hr, Except.ok.injEq] at h
          exact ⟨0, Nat.le_refl 0, h ▸ hleads⟩
        · rw [follow_failed hfail] at h
          cases h
        · rw [follow_link_zero hlink] at h
          cases h
    | succ links ih =>
        rcases tree.scan_leads place names with
          ⟨r, hr, hleads⟩ | ⟨reason, hfail⟩ | ⟨d, target, rest, hlink, hleads⟩
        · rw [follow_arrived hr, Except.ok.injEq] at h
          exact ⟨0, Nat.zero_le _, h ▸ hleads⟩
        · rw [follow_failed hfail] at h
          cases h
        · rw [follow_link_succ hlink, ← List.append_assoc] at h
          obtain ⟨n, hn, hon⟩ := ih h
          obtain ⟨m, k, r, hway, hrest, rfl⟩ := hon.split
          exact ⟨m + 1 + k, by omega, hleads hway hrest⟩
  · rintro ⟨n, hn, h⟩
    rw [h.follow hn (List.cons_ne_nil "" []), follow_empty]

end

end Reclaim.Files.Tree
