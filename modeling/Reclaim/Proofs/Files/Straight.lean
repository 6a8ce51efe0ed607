import Reclaim.Proofs.Files.Named
import Reclaim.Proofs.Path.Collapse

/-!
Walks beside the parts that are left of a path when its pairs of dots have been collapsed on the
text. Dots go up from where the walk is, and on the text they take away the part before; the two
agree where the walk comes back to the directory in which that part was looked up. A path on which
this is always so names the same place in its absolute form, from whatever directory that is seen.
-/

namespace Reclaim.Files

open Reclaim.Path (isPart stackParts)

/-- A name that an entry may have. -/
structure IsName (name : String) : Prop where
  isPart : isPart name = true
  notUp : name ≠ ".."
  noSlash : '/' ∉ name.toList
  noNul : '\x00' ∉ name.toList
  size : name.utf8ByteSize ≤ maxNameSize

/-- A directory in a directory, and so on out to the root. -/
inductive Tree.Stands (tree : Tree) : Place → Prop
  | root : Stands tree []
  | inside {name : String} {place : Place} (isName : IsName name)
      (there : tree.get? (name :: place) = some .directory) (around : Stands tree place) :
      Stands tree (name :: place)

namespace Tree

variable {tree : Tree}

theorem Stands.isName {place : Place} (h : tree.Stands place) : ∀ name ∈ place, IsName name := by
  induction h with
  | root => nofun
  | inside isName there around ih =>
      intro name hname
      rcases List.mem_cons.mp hname with rfl | hname
      · exact isName
      · exact ih name hname

theorem Stands.isDirectory {place : Place} (h : tree.Stands place) :
    tree.get? place = some .directory := by
  cases h with
  | root => rfl
  | inside isName there around => exact there

theorem Stands.up_not_mem {place : Place} (h : tree.Stands place) : ".." ∉ place :=
  fun hmem => (h.isName ".." hmem).notUp rfl

theorem Stands.leads {place : Place} (h : tree.Stands place) :
    tree.Leads [] place.reverse 0 place := by
  induction h with
  | root => exact .done []
  | inside isName there around ih =>
      rw [List.reverse_cons]
      exact ih.append (.enter isName.isPart isName.notUp isName.size there (.done _))

/-- A name that leads somewhere is short enough, and leads to its own place unless it is a link. -/
theorem leads_name {place p : Place} {name : String} {n : Nat} (his : isPart name = true)
    (hup : name ≠ "..") (h : tree.Leads place [name] n p) :
    name.utf8ByteSize ≤ maxNameSize ∧
      (p = name :: place ∨ ∃ target, tree.get? (name :: place) = some (.link target)) := by
  cases h with
  | skip hskip => simp [his] at hskip
  | up => exact absurd rfl hup
  | enter _ _ size _ rest =>
      cases rest
      exact ⟨size, .inl rfl⟩
  | link _ _ size there => exact ⟨size, .inr ⟨_, there⟩⟩

/-- A way that is written as a stack ends with a name, looked up in one directory and leading to
another. -/
def EndsAt (tree : Tree) (stack : List String) (name : String) (q p : Place) : Prop :=
  ∃ below n m, stack = name :: below ∧ tree.Leads [] below.reverse n q ∧ tree.Leads q [name] m p

/-- Dots go back to the directory in which the part was looked up that they take away. -/
def GoesBack (tree : Tree) (base : Place) (parts : List String) : Prop :=
  ∀ before after name q p, parts = before ++ ".." :: after →
    tree.EndsAt (stackParts base before) name q p → p.tail = q

theorem GoesBack.init {base : Place} {parts : List String} {part : String}
    (h : tree.GoesBack base (parts ++ [part])) : tree.GoesBack base parts := by
  intro before after name q p hparts
  exact h before (after ++ [part]) name q p (by rw [hparts]; simp)

/-- What parts lead to is also led to from the root by what is left of them on a stack, over no
more links. -/
theorem leads_stackParts {base p : Place} {parts : List String} {n : Nat}
    (stands : tree.Stands base) (back : tree.GoesBack base parts)
    (h : tree.Leads base parts n p) :
    ∃ m ≤ n, tree.Leads [] (stackParts base parts).reverse m p := by
  -- from the end, for the stack holds what all the parts so far have left
  induction parts using List.reverseRecOn generalizing n p with
  | nil =>
      cases h
      exact ⟨0, Nat.le_refl 0, stands.leads⟩
  | append_singleton parts part ih =>
      obtain ⟨n₁, n₂, p₁, hparts, hpart, rfl⟩ := h.split
      obtain ⟨m, hm, hstack⟩ := ih back.init hparts
      by_cases hup : part = ".."
      · subst hup
        rw [Path.stackParts_up]
        have hgone : p = p₁.tail := hpart.unique (.up (.done _))
        -- the part that is taken away was the last one that the walk had looked up
        cases hshape : stackParts base parts with
        | nil =>
            rw [hshape] at hstack
            have hroot : p₁ = [] := hstack.unique (.done [])
            subst hgone hroot
            exact ⟨0, Nat.zero_le _, .done []⟩
        | cons name below =>
            rw [hshape, List.reverse_cons] at hstack
            obtain ⟨m₁, m₂, q, hbelow, hname, rfl⟩ := hstack.split
            have hback := back parts [] name q p₁ rfl ⟨below, m₁, m₂, hshape, hbelow, hname⟩
            rw [hgone, hback]
            exact ⟨m₁, by omega, hbelow⟩
      · rw [Path.stackParts_name base parts hup, List.reverse_cons]
        exact ⟨m + n₂, by omega, hstack.append hpart⟩

end Tree

/-- A path on which dots go back where the part before was looked up, and which does not stop
behind a link if it ends with no name of its own. -/
structure Tree.Straight (tree : Tree) (cwd : Place) (text : String) : Prop where
  goesBack : tree.GoesBack (start cwd text) (Path.ofText text).parts
  stays : (∀ before last, ¬EndsWith text before last) → ∀ name q p,
    tree.EndsAt (stackParts (start cwd text) (Path.ofText text).parts) name q p → p = name :: q

namespace Tree

variable {tree : Tree} {cwd place : Place} {text : String}

/-- A path that ends with a name and holds no pair of dots is straight. -/
theorem straight_of_notUp {before : List String} {last : String} (h : EndsWith text before last)
    (hup : ".." ∉ (Path.ofText text).parts) : tree.Straight cwd text where
  goesBack before after name q p hparts _ := by
    rw [hparts] at hup
    exact absurd (List.mem_append_right before List.mem_cons_self) hup
  stays hnone := absurd h (hnone before last)

/-- Where there are no links every path is straight. -/
theorem straight_of_noLinks (h : ∀ place target, tree.get? place ≠ some (.link target))
    (stands : tree.Stands (start cwd text)) : tree.Straight cwd text := by
  have hdirect : ∀ parts ⊆ (Path.ofText text).parts, ∀ name q p,
      tree.EndsAt (stackParts (start cwd text) parts) name q p → p = name :: q := by
    rintro parts hparts name q p ⟨below, n, m, hstack, -, hlast⟩
    have hmem : name ∈ stackParts (start cwd text) parts := hstack ▸ List.mem_cons_self
    obtain ⟨his, hup⟩ : isPart name = true ∧ name ≠ ".." := by
      rcases Path.mem_stackParts hmem with hbase | ⟨hname, hup⟩
      · exact ⟨(stands.isName name hbase).isPart, (stands.isName name hbase).notUp⟩
      · exact ⟨(Path.isRead_ofText text name (hparts hname)).1, hup⟩
    obtain ⟨-, hplace | ⟨target, hlink⟩⟩ := leads_name his hup hlast
    · exact hplace
    · exact absurd hlink (h _ target)
  constructor
  · intro before after name q p hparts hends
    have hsub : before ⊆ (Path.ofText text).parts := by
      rw [hparts]
      exact List.subset_append_left _ _
    rw [hdirect before hsub name q p hends]
    rfl
  · intro _ name q p
    exact hdirect _ (List.Subset.refl _) name q p

theorem endsWith_of_isCollapsed {q : Path} {stack : List String} {name : String}
    (h : q.IsCollapsed (name :: stack)) :
    ∃ before, EndsWith q.text before name ∧ before.filter isPart = stack.reverse :=
  endsWith_text h.isRead (h.parts.trans List.reverse_cons)
    fun hup => h.notUp (hup ▸ List.mem_cons_self)

theorem placeOf_of_isCollapsed {q : Path} {stack : List String} {directory : Place} {name : String}
    (h : q.IsCollapsed (name :: stack)) (hsize : name.utf8ByteSize ≤ maxNameSize)
    (hshort : q.text.utf8ByteSize < pathSizeLimit) {n : Nat} (hn : n ≤ maxLinks)
    (hleads : tree.Leads [] stack.reverse n directory) :
    tree.placeOf cwd q.text = .ok (name :: directory) := by
  obtain ⟨before, hends, hbefore⟩ := endsWith_of_isCollapsed h
  have hcheck := checkText_eq_ok.mpr ⟨hshort, Path.text_ne_empty h.isRead⟩
  refine (placeOf_eq_ok_of_name hends).mpr ⟨hcheck, hsize, directory, rfl, n, hn, ?_⟩
  rw [start, if_pos ((Path.head?_text h.isRead).mpr h.isAbsolute), ← leads_filter, hbefore]
  exact hleads

theorem placeOf_root {q : Path} (h : q.IsCollapsed []) : tree.placeOf cwd q.text = .ok [] := by
  rcases h.text_root with htext | htext <;> rw [htext] <;> rfl

theorem resolve_root {q : Path} (h : q.IsCollapsed []) (followLast : Bool) :
    tree.resolve cwd followLast (Path.ofText q.text).text = .ok [] := by
  rcases h.text_root with htext | htext <;> rw [htext] <;> rfl

/-- A straight path names the same place when its dots have been collapsed, wherever it is seen
from. -/
theorem placeOf_of_straight (stands : tree.Stands (start cwd text))
    (straight : tree.Straight cwd text) (hplace : tree.placeOf cwd text = .ok place)
    {q : Path} (h : q.IsCollapsed (stackParts (start cwd text) (Path.ofText text).parts))
    (hshort : q.text.utf8ByteSize < pathSizeLimit) (cwd' : Place) :
    tree.placeOf cwd' q.text = .ok place := by
  by_cases hnamed : ∃ before name, EndsWith text before name
  · obtain ⟨before, name, hends⟩ := hnamed
    obtain ⟨-, hsize, directory, rfl, n, hn, hleads⟩ := (placeOf_eq_ok_of_name hends).mp hplace
    have hback := straight.goesBack
    rw [parts_ofText hends] at hback h
    rw [Path.stackParts_name _ _ hends.notUp] at h
    obtain ⟨m, hm, hstack⟩ := leads_stackParts stands hback.init (leads_filter.mpr hleads)
    exact placeOf_of_isCollapsed h hsize hshort (Nat.le_trans hm hn) hstack
  · -- without a name at its end the path names what it leads to
    have hnone : ∀ before name, ¬EndsWith text before name := fun before name hends =>
      hnamed ⟨before, name, hends⟩
    have hdots : ∀ before name gap, components text = before ++ name :: gap → name ≠ "" →
        (∀ c ∈ gap, c = "") → name = "." ∨ name = ".." := by
      intro before name gap hcomponents hname hgap
      by_contra hno
      obtain ⟨hdot, hup⟩ := not_or.mp hno
      exact hnone before name ⟨by simp [isPart, hname, hdot], hup, gap, hgap, hcomponents⟩
    obtain ⟨-, n, hn, hleads⟩ := (placeOf_eq_ok_of_leads hdots).mp hplace
    obtain ⟨m, hm, hstack⟩ := leads_stackParts stands straight.goesBack (leads_filter.mpr hleads)
    cases hshape : stackParts (start cwd text) (Path.ofText text).parts with
    | nil =>
        rw [hshape] at hstack h
        obtain rfl : place = [] := hstack.unique (.done [])
        exact placeOf_root h
    | cons name below =>
        rw [hshape] at h
        rw [hshape, List.reverse_cons] at hstack
        obtain ⟨m₁, m₂, directory, hbelow, hname, rfl⟩ := hstack.split
        have hplace := straight.stays hnone name directory place
          ⟨below, m₁, m₂, hshape, hbelow, hname⟩
        have his : isPart name = true := (h.isRead name (by simp [h.parts])).1
        have hup : name ≠ ".." := fun hup => h.notUp (hup ▸ List.mem_cons_self)
        obtain ⟨hsize, -⟩ := leads_name his hup hname
        rw [hplace]
        exact placeOf_of_isCollapsed h hsize hshort (by omega) hbelow

end Tree
end Reclaim.Files
