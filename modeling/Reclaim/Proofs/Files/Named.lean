import Mathlib.Data.List.Induction
import Reclaim.Proofs.Files.Leads
import Reclaim.Proofs.Files.Removal

/-!
The entry that a path names. It is found, or could be made, under the final name of the path in
the directory that the components before it lead to; a final link is not followed. A path that
does not end with a name names the directory that it leads to.
-/

namespace Reclaim.Files

open Reclaim.Path (isPart)

def Final.placeIn (directory : Place) : Final → Except Reason Place
  | name part _ =>
      if maxNameSize < part.utf8ByteSize then .error .nameTooLong else .ok (part :: directory)
  | dotDot => .ok directory.tail
  | root | dot => .ok directory

/-- The place of the entry that a path names, whether or not an entry is there. -/
def Tree.placeOf (tree : Tree) (cwd : Place) (text : String) : Except Reason Place :=
  match tree.resolveParent cwd text with
  | .error reason => .error reason
  | .ok (directory, final) => final.placeIn directory

theorem components_cases (text : String) :
    (∀ c ∈ components text, c = "") ∨ ∃ before name gap,
      components text = before ++ name :: gap ∧ name ≠ "" ∧ ∀ c ∈ gap, c = "" := by
  induction components text using List.reverseRecOn with
  | nil => exact .inl nofun
  | append_singleton front last ih =>
      by_cases hlast : last = ""
      · rcases ih with hall | ⟨before, name, gap, rfl, hname, hgap⟩
        · left
          intro c hc
          rcases List.mem_append.mp hc with hc | hc
          · exact hall c hc
          · exact (List.mem_singleton.mp hc).trans hlast
        · refine .inr ⟨before, name, gap ++ [last], by simp, hname, fun c hc => ?_⟩
          rcases List.mem_append.mp hc with hc | hc
          · exact hgap c hc
          · exact (List.mem_singleton.mp hc).trans hlast
      · exact .inr ⟨front, last, [], rfl, hlast, nofun⟩

theorem dropWhile_blank {gap : List String} (hgap : ∀ c ∈ gap, c = "") (rest : List String) :
    (gap ++ rest).dropWhile (· = "") = rest.dropWhile (· = "") := by
  rw [List.dropWhile_append_of_pos]
  intro c hc
  simpa using hgap c hc

theorem splitFinal_blank {text : String} (h : ∀ c ∈ components text, c = "") :
    splitFinal text = ([], .root) := by
  have hdrop : (components text).reverse.dropWhile (· = "") = [] := by
    rw [← List.append_nil (components text).reverse, dropWhile_blank (by simpa using h)]
    rfl
  simp only [splitFinal, hdrop]

theorem splitFinal_of_components {text name : String} {before gap : List String}
    (hcomponents : components text = before ++ name :: gap) (hname : name ≠ "")
    (hgap : ∀ c ∈ gap, c = "") :
    ∃ slash, splitFinal text = (before, .ofName name slash) := by
  have hdrop : (components text).reverse.dropWhile (· = "") = name :: before.reverse := by
    rw [hcomponents, List.reverse_append, List.reverse_cons, List.append_assoc,
      dropWhile_blank (by simpa using hgap)]
    exact List.dropWhile_cons_of_neg (by simpa using hname)
  refine ⟨(components text).reverse.head? = some "", ?_⟩
  simp only [splitFinal, hdrop, List.reverse_reverse]

/-- A text ends with a name after some components, slashes at its end aside. -/
structure EndsWith (text : String) (before : List String) (name : String) : Prop where
  isPart : isPart name = true
  notUp : name ≠ ".."
  written : ∃ gap, (∀ c ∈ gap, c = "") ∧ components text = before ++ name :: gap

theorem EndsWith.splitFinal {text name : String} {before : List String}
    (h : EndsWith text before name) : ∃ slash, splitFinal text = (before, .name name slash) := by
  obtain ⟨his, hup, gap, hgap, hcomponents⟩ := h
  obtain ⟨hempty, hdot⟩ := not_or.mp (Tree.not_skipped his)
  obtain ⟨slash, hsplit⟩ := splitFinal_of_components hcomponents hempty hgap
  rw [Final.ofName, if_neg hdot, if_neg hup] at hsplit
  exact ⟨slash, hsplit⟩

theorem endsWith_of_splitFinal {text name : String} {before : List String} {slash : Bool}
    (h : splitFinal text = (before, .name name slash)) : EndsWith text before name := by
  rcases components_cases text with hall | ⟨before', name', gap, hcomponents, hname, hgap⟩
  · rw [splitFinal_blank hall] at h
    cases h
  · obtain ⟨slash', hsplit⟩ := splitFinal_of_components hcomponents hname hgap
    rw [hsplit] at h
    obtain ⟨rfl, hfinal⟩ := Prod.mk.inj h
    unfold Final.ofName at hfinal
    split at hfinal
    · cases hfinal
    · rename_i hdot
      split at hfinal
      · cases hfinal
      · rename_i hup
        obtain ⟨rfl, -⟩ := Final.name.inj hfinal
        exact ⟨by simp [Path.isPart, hname, hdot], hup, gap, hgap, hcomponents⟩

theorem filter_blank {gap : List String} (hgap : ∀ c ∈ gap, c = "") : gap.filter isPart = [] := by
  rw [List.filter_eq_nil_iff]
  intro c hc
  rw [hgap c hc]
  decide

namespace Tree

variable {tree : Tree} {cwd place : Place} {text : String}

theorem checkText_eq_ok : checkText text = .ok () ↔
    text.utf8ByteSize < pathSizeLimit ∧ text ≠ "" := by
  unfold checkText
  split
  · rename_i hsize
    simp [Nat.not_lt.mpr hsize]
  · rename_i hsize
    split
    · rename_i hempty
      simp [hempty]
    · rename_i hempty
      simp [hempty, Nat.not_le.mp hsize]

theorem placeOf_eq_ok {before : List String} {final : Final}
    (hsplit : splitFinal text = (before, final)) :
    tree.placeOf cwd text = .ok place ↔
      checkText text = .ok () ∧ ∃ directory, final.placeIn directory = .ok place ∧
        ∃ n ≤ maxLinks, tree.Leads (start cwd text) before n directory := by
  unfold placeOf resolveParent
  cases hcheck : checkText text with
  | error reason => simp
  | ok _ =>
      simp only [hsplit, ← follow_eq_ok_iff, true_and]
      cases tree.follow true maxLinks (start cwd text) (before ++ [""]) with
      | error reason => simp
      | ok directory => simp

/-- A path that ends with a name names what has that name in the directory before it. -/
theorem placeOf_eq_ok_of_name {name : String} {before : List String}
    (h : EndsWith text before name) :
    tree.placeOf cwd text = .ok place ↔
      checkText text = .ok () ∧ name.utf8ByteSize ≤ maxNameSize ∧
        ∃ directory, place = name :: directory ∧
          ∃ n ≤ maxLinks, tree.Leads (start cwd text) before n directory := by
  obtain ⟨slash, hsplit⟩ := h.splitFinal
  rw [placeOf_eq_ok hsplit]
  simp only [Final.placeIn]
  by_cases hsize : maxNameSize < name.utf8ByteSize
  · simp [hsize, Nat.not_le.mpr hsize]
  · simp [hsize, Nat.not_lt.mp hsize, eq_comm]

theorem leads_of_blank {gap : List String} (hgap : ∀ c ∈ gap, c = "") {q : Place} {n : Nat} :
    tree.Leads place gap n q ↔ n = 0 ∧ q = place := by
  rw [← leads_filter, filter_blank hgap]
  constructor
  · rintro ⟨⟩
    exact ⟨rfl, rfl⟩
  · rintro ⟨rfl, rfl⟩
    exact .done _

theorem leads_of_dots {name : String} (hname : name = "." ∨ name = "..") {gap : List String}
    (hgap : ∀ c ∈ gap, c = "") (slash : Bool) {q : Place} {n : Nat} :
    tree.Leads place (name :: gap) n q ↔
      n = 0 ∧ (Final.ofName name slash).placeIn place = .ok q := by
  rcases hname with rfl | rfl
  · have hdot : Final.ofName "." slash = .dot := rfl
    rw [← leads_filter, List.filter_cons_of_neg (by decide), leads_filter, leads_of_blank hgap,
      hdot]
    simp [Final.placeIn, eq_comm]
  · have hdots : Final.ofName ".." slash = .dotDot := rfl
    rw [hdots]
    constructor
    · intro h
      cases h with
      | skip his rest => exact absurd his (by decide)
      | up rest =>
          obtain ⟨rfl, rfl⟩ := (leads_of_blank hgap).mp rest
          exact ⟨rfl, rfl⟩
      | enter _ hup => exact absurd rfl hup
      | link _ hup => exact absurd rfl hup
    · rintro ⟨rfl, h⟩
      exact .up ((leads_of_blank hgap).mpr ⟨rfl, (Except.ok.inj h).symm⟩)

theorem placeOf_eq_ok_of_leads
    (hfinal : ∀ before name gap, components text = before ++ name :: gap → name ≠ "" →
      (∀ c ∈ gap, c = "") → name = "." ∨ name = "..") :
    tree.placeOf cwd text = .ok place ↔
      checkText text = .ok () ∧
        ∃ n ≤ maxLinks, tree.Leads (start cwd text) (components text) n place := by
  rcases components_cases text with hall | ⟨before, name, gap, hcomponents, hname, hgap⟩
  · rw [placeOf_eq_ok (splitFinal_blank hall)]
    have hnil : ∀ {n q}, tree.Leads (start cwd text) [] n q ↔ n = 0 ∧ q = start cwd text :=
      leads_of_blank (by simp)
    simp only [leads_of_blank hall, hnil, Final.placeIn]
    simp [eq_comm]
  · obtain ⟨slash, hsplit⟩ := splitFinal_of_components hcomponents hname hgap
    have hdots := hfinal before name gap hcomponents hname hgap
    rw [placeOf_eq_ok hsplit, hcomponents]
    refine and_congr_right fun _ => ?_
    constructor
    · rintro ⟨directory, hplace, n, hn, hleads⟩
      exact ⟨n, hn, hleads.append ((leads_of_dots hdots hgap slash).mpr ⟨rfl, hplace⟩)⟩
    · rintro ⟨n, hn, hleads⟩
      obtain ⟨m, k, directory, hbefore, hlast, rfl⟩ := hleads.split
      obtain ⟨rfl, hplace⟩ := (leads_of_dots hdots hgap slash).mp hlast
      exact ⟨directory, hplace, m, hn, hbefore⟩

/-- A path that begins where it did names the same where directories and links are the same. -/
theorem placeOf_along {tree' : Tree} {cwd' : Place} (hways : tree.WaysWithin tree')
    (hstart : start cwd' text = start cwd text) (h : tree.placeOf cwd text = .ok place) :
    tree'.placeOf cwd' text = .ok place := by
  obtain ⟨before, final, hsplit⟩ : ∃ before final, splitFinal text = (before, final) := ⟨_, _, rfl⟩
  obtain ⟨hcheck, directory, hplace, n, hn, hleads⟩ := (placeOf_eq_ok hsplit).mp h
  refine (placeOf_eq_ok hsplit).mpr ⟨hcheck, directory, hplace, n, hn, ?_⟩
  rw [hstart]
  exact hleads.along hways

theorem placeOf_within {tree' : Tree} {cwd' : Place} (hsub : tree.Within tree')
    (hstart : start cwd' text = start cwd text) (h : tree.placeOf cwd text = .ok place) :
    tree'.placeOf cwd' text = .ok place :=
  placeOf_along hsub.ways hstart h

/-- The text of a path that has been read ends with its last part, if that is a name. -/
theorem endsWith_text {p : Path} (h : p.IsRead) {init : List String} {name : String}
    (hparts : p.parts = init ++ [name]) (hup : name ≠ "..") :
    ∃ before, EndsWith p.text before name ∧ before.filter isPart = init := by
  obtain ⟨lead, hlead, hcomponents⟩ := Path.components_text h
  have hread : ∀ part ∈ init ++ [name], isPart part = true := fun part hpart =>
    (h part (hparts ▸ hpart)).1
  refine ⟨lead ++ init, ⟨hread name (by simp), hup, [], nofun, ?_⟩, ?_⟩
  · rw [hcomponents, hparts, List.append_assoc]
  · rw [List.filter_append, List.filter_eq_nil_iff.mpr (by simpa using hlead), List.nil_append,
      List.filter_eq_self]
    exact fun part hpart => hread part (List.mem_append_left _ hpart)

theorem parts_ofText {name : String} {before : List String} (h : EndsWith text before name) :
    (Path.ofText text).parts = before.filter isPart ++ [name] := by
  obtain ⟨gap, hgap, hcomponents⟩ := h.written
  show (components text).filter isPart = _
  rw [hcomponents, List.filter_append, List.filter_cons_of_pos h.isPart, filter_blank hgap]

/-- A path that ends with a name still names the same when it has been read. -/
theorem placeOf_ofText {name : String} {before : List String} (h : EndsWith text before name)
    (hplace : tree.placeOf cwd text = .ok place) :
    tree.placeOf cwd (Path.ofText text).text = .ok place := by
  obtain ⟨before', hends, hbefore⟩ :=
    endsWith_text (Path.isRead_ofText text) (parts_ofText h) h.notUp
  obtain ⟨hcheck, hsize, directory, rfl, n, hn, hleads⟩ := (placeOf_eq_ok_of_name h).mp hplace
  refine (placeOf_eq_ok_of_name hends).mpr
    ⟨checkText_ofText hcheck, hsize, directory, rfl, n, hn, ?_⟩
  rw [start_ofText, ← leads_filter, hbefore, leads_filter]
  exact hleads

/-- What a path that has been read leads to, a final link not followed, is what it names, if it
ends with a name; and it leads there if an entry is there. -/
theorem resolve_text_iff {p : Path} (h : p.IsRead) {init : List String} {name : String}
    (hparts : p.parts = init ++ [name]) (hup : name ≠ "..") :
    tree.resolve cwd false p.text = .ok place ↔
      tree.placeOf cwd p.text = .ok place ∧ tree.get? place ≠ none := by
  obtain ⟨lead, hlead, hcomponents⟩ := Path.components_text h
  rw [hparts, ← List.append_assoc] at hcomponents
  have hends : EndsWith p.text (lead ++ init) name :=
    ⟨(h name (by simp [hparts])).1, hup, [], nofun, hcomponents⟩
  rw [placeOf_eq_ok_of_name hends, resolve_eq_ok, hcomponents, follow_snoc hends.isPart hup]
  simp only [follow_eq_ok_iff]
  constructor
  · rintro ⟨hcheck, directory, hleads, hsize, hget, rfl⟩
    exact ⟨⟨hcheck, hsize, directory, rfl, hleads⟩, hget⟩
  · rintro ⟨⟨hcheck, hsize, directory, rfl, hleads⟩, hget⟩
    exact ⟨hcheck, directory, hleads, hsize, hget, rfl⟩

/-- Once it has been read, a path that ends with a name leads to the entry that it names, if that
is there, and to no other. -/
theorem resolve_ofText_iff {name : String} {before : List String} (h : EndsWith text before name)
    (hplace : tree.placeOf cwd text = .ok place) {named : Place} :
    tree.resolve cwd false (Path.ofText text).text = .ok named ↔
      named = place ∧ tree.get? place ≠ none := by
  rw [resolve_text_iff (Path.isRead_ofText text) (parts_ofText h) h.notUp, placeOf_ofText h hplace,
    Except.ok.injEq]
  constructor
  · rintro ⟨rfl, hget⟩
    exact ⟨rfl, hget⟩
  · rintro ⟨rfl, hget⟩
    exact ⟨rfl, hget⟩

end Tree
end Reclaim.Files
