/-!
Files, directories and symbolic links as a finite table. An entry stands at a place, which lists
the names on the way to it from the innermost outwards; the root is the empty list and always a
directory. The table is seen through `get?`, and each change has one equation on that view.
-/

namespace Reclaim.Files

/-- The names on the way from an entry out to the root. -/
abbrev Place := List String

inductive Entry
  | directory
  | file (content : ByteArray)
  | link (target : String)

instance : DecidableEq Entry
  | .directory, .directory => .isTrue rfl
  | .file a, .file b =>
      match ByteArray.instDecidableEq a b with
      | .isTrue h => .isTrue (by rw [h])
      | .isFalse h => .isFalse fun e => h (by injection e)
  | .link a, .link b =>
      match String.decEq a b with
      | .isTrue h => .isTrue (by rw [h])
      | .isFalse h => .isFalse fun e => h (by injection e)
  | .directory, .file _ | .directory, .link _ | .file _, .directory => .isFalse nofun
  | .file _, .link _ | .link _, .directory | .link _, .file _ => .isFalse nofun

/-- Whether the second place lies strictly inside the first. -/
def Place.below (outer inner : Place) : Bool :=
  outer.isSuffixOf inner && outer.length < inner.length

theorem Place.below_iff {outer inner : Place} :
    outer.below inner = true ↔ ∃ names, names ≠ [] ∧ inner = names ++ outer := by
  simp only [Place.below, Bool.and_eq_true, List.isSuffixOf_iff_suffix, decide_eq_true_eq]
  constructor
  · rintro ⟨⟨names, rfl⟩, h⟩
    exact ⟨names, by rintro rfl; simp at h, rfl⟩
  · rintro ⟨names, h, rfl⟩
    exact ⟨⟨names, rfl⟩, by simpa [List.length_pos_iff] using h⟩

structure Tree where
  entries : List (Place × Entry)
  -- no entry has an empty name or lies inside one that has
  named : ∀ e ∈ entries, "" ∉ e.1

namespace Tree

def empty : Tree := ⟨[], by simp⟩

def get? (tree : Tree) (place : Place) : Option Entry :=
  if place = [] then some .directory
  else (tree.entries.find? fun e => e.1 = place).map (·.2)

def keep (tree : Tree) (test : Place → Bool) : Tree where
  entries := tree.entries.filter fun e => test e.1
  named e he := tree.named e (List.mem_filter.mp he).1

/-- Puts an entry at a place, unless a name on the way is empty. -/
def put (tree : Tree) (place : Place) (entry : Entry) : Tree :=
  if h : "" ∈ place then tree
  else
    let others := tree.keep fun q => q ≠ place
    { entries := (place, entry) :: others.entries
      named := by
        intro e he
        rcases List.mem_cons.mp he with rfl | he
        · exact h
        · exact others.named e he }

def erase (tree : Tree) (place : Place) : Tree :=
  tree.keep fun q => q ≠ place

def eraseBelow (tree : Tree) (place : Place) : Tree :=
  tree.keep fun q => !place.below q

/-- Removes what lies inside a place, but for some entries and the directories around them. -/
def eraseBelowBut (tree : Tree) (place : Place) (spared : List Place) : Tree :=
  tree.keep fun q => !place.below q || spared.any fun s => q = s || q.below s

def isBare (tree : Tree) (place : Place) : Bool :=
  tree.entries.all fun e => !place.below e.1

theorem find?_filter_of_imp {α : Type} {p q : α → Bool} (l : List α)
    (h : ∀ a, p a = true → q a = true) : (l.filter q).find? p = l.find? p := by
  induction l with
  | nil => rfl
  | cons a l ih =>
      by_cases hq : q a = true
      · simp [hq, List.find?_cons, ih]
      · have hp : p a = false := by
          cases hpa : p a with
          | false => rfl
          | true => exact absurd (h a hpa) hq
        simp [hq, hp, ih]

@[simp] theorem get?_root (tree : Tree) : tree.get? [] = some .directory := rfl

theorem get?_of_empty_mem (tree : Tree) {place : Place} (h : "" ∈ place) :
    tree.get? place = none := by
  have hne : place ≠ [] := List.ne_nil_of_mem h
  simp only [get?, hne, if_false, Option.map_eq_none_iff, List.find?_eq_none, decide_eq_true_eq]
  rintro e he rfl
  exact tree.named e he h

theorem get?_keep (tree : Tree) (test : Place → Bool) {q : Place} (hq : q ≠ []) :
    (tree.keep test).get? q = if test q then tree.get? q else none := by
  by_cases ht : test q = true
  · simp only [get?, keep, hq, if_false, ht, if_true]
    rw [find?_filter_of_imp]
    intro e he
    have : e.1 = q := by simpa using he
    rw [this, ht]
  · rw [if_neg ht]
    simp only [get?, keep, hq, if_false, Option.map_eq_none_iff, List.find?_eq_none,
      List.mem_filter, decide_eq_true_eq]
    rintro e ⟨-, he⟩ rfl
    exact ht he

theorem get?_put (tree : Tree) {place : Place} (h : place ≠ []) (hn : "" ∉ place)
    (entry : Entry) (q : Place) :
    (tree.put place entry).get? q = if q = place then some entry else tree.get? q := by
  by_cases hq : q = place
  · subst hq
    simp [get?, put, h, hn]
  · have hq' : ¬place = q := fun e => hq e.symm
    by_cases hr : q = []
    · simp [hr, Ne.symm h]
    · have := tree.get?_keep (fun q => q ≠ place) hr
      simp only [get?, hr, if_false, hq, ne_eq, not_false_eq_true, decide_true,
        if_true] at this
      simpa [get?, put, hn, hr, hq, hq', List.find?_cons] using this

theorem get?_erase (tree : Tree) {place : Place} (h : place ≠ []) (q : Place) :
    (tree.erase place).get? q = if q = place then none else tree.get? q := by
  by_cases hr : q = []
  · simp [hr, Ne.symm h]
  · rw [erase, get?_keep _ _ hr]
    by_cases hq : q = place <;> simp [hq]

theorem not_below_root (place : Place) : place.below [] = false := by
  simp [Place.below]

theorem isBare_iff (tree : Tree) (place : Place) :
    tree.isBare place = true ↔ ∀ q, place.below q = true → tree.get? q = none := by
  simp only [isBare, List.all_eq_true, Bool.not_eq_true']
  constructor
  · intro h q hq
    have hne : q ≠ [] := by
      rintro rfl
      simp [not_below_root] at hq
    simp only [get?, hne, if_false, Option.map_eq_none_iff, List.find?_eq_none,
      decide_eq_true_eq]
    rintro e he rfl
    simp [h e he] at hq
  · intro h e he
    cases hb : place.below e.1 with
    | false => rfl
    | true =>
        have hne : e.1 ≠ [] := by
          intro h0
          simp [h0, not_below_root] at hb
        have := h e.1 hb
        simp only [get?, hne, if_false, Option.map_eq_none_iff, List.find?_eq_none,
          decide_eq_true_eq] at this
        exact absurd rfl (this e he)

/-- The place of a directory as it is known from inside after a change: the name of each directory
on the way that is gone is lost. No entry has an empty name, so nothing is found under a lost one,
not even where a directory of the same name is made later. -/
def detach (tree : Tree) : Place → Place
  | [] => []
  | name :: around =>
      if tree.get? (name :: around) = some .directory then name :: around
      else "" :: tree.detach around

theorem detach_of_get? {tree : Tree} {place : Place} (h : tree.get? place = some .directory) :
    tree.detach place = place := by
  cases place with
  | nil => rfl
  | cons name around => simp [detach, h]

def textFrom (outer place : Place) : String :=
  "/".intercalate (place.take (place.length - outer.length)).reverse

/-- The entries inside a place with their texts as seen from it, in the order of these texts. -/
def listing (tree : Tree) (outer : Place) : List (String × Entry) :=
  let inside := tree.entries.filter fun e => outer.below e.1
  (inside.map fun e => (textFrom outer e.1, e.2)).mergeSort fun a b => decide (a.1 ≤ b.1)

end Tree
end Reclaim.Files
