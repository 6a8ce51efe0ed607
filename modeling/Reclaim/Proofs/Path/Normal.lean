import Reclaim.Path.Argument
import Reclaim.Proofs.Path.Collapse

/-!
Texts in normal form: a root of one slash or two, and then names with one slash between each two.
The absolute form of a path, seen from a directory whose text is so, has such a text. A text in
normal form has no other: it is read as a path and written again without change, and it is its own
absolute form from everywhere.
-/

namespace Reclaim

/-- A text is spelled as a root and the names after it. -/
structure NormalText (text : String) (anchor : Anchor) (names : List String) : Prop where
  spelled : text = anchor.text ++ "/".intercalate names
  rooted : anchor = .root ∨ anchor = .doubleRoot
  named : ∀ name ∈ names, name ≠ "" ∧ name ≠ "." ∧ name ≠ ".." ∧ '/' ∉ name.toList

theorem getLast?_intercalate {names : List String} (hne : names ≠ [])
    (h : ∀ name ∈ names, name ≠ "" ∧ '/' ∉ name.toList) :
    ∃ c, ("/".intercalate names).toList.getLast? = some c ∧ c ≠ '/' := by
  induction names with
  | nil => exact absurd rfl hne
  | cons name rest ih =>
      obtain ⟨⟨hname, hslash⟩, hrest⟩ := List.forall_mem_cons.mp h
      cases rest with
      | nil =>
          have hchars : name.toList ≠ [] := by simpa using hname
          refine ⟨name.toList.getLast hchars, ?_, ?_⟩
          · rw [String.intercalate_singleton, List.getLast?_eq_some_getLast hchars]
          · exact fun heq => hslash (heq ▸ List.getLast_mem hchars)
      | cons next rest =>
          obtain ⟨c, hlast, hc⟩ := ih (by simp) hrest
          refine ⟨c, ?_, hc⟩
          rw [String.intercalate_cons_cons, String.toList_append, List.getLast?_append, hlast]
          rfl

namespace Path

theorem text_of_isAbsolute {p : Path} (h : p.isAbsolute = true) :
    p.text = p.anchor.text ++ "/".intercalate p.parts := by
  have hanchor : p.anchor ≠ .relative := by simpa [isAbsolute] using h
  exact if_neg fun hempty => hanchor hempty.1

theorem IsCollapsed.normalText {p : Path} {stack : List String} (h : p.IsCollapsed stack) :
    NormalText p.text p.anchor p.parts where
  spelled := text_of_isAbsolute h.isAbsolute
  rooted := by
    have habsolute := h.isAbsolute
    cases hanchor : p.anchor <;> simp [Path.isAbsolute, hanchor] at habsolute ⊢
  named := by
    intro name hname
    obtain ⟨his, hslash⟩ := h.isRead name hname
    have hup : name ≠ ".." := by
      rintro rfl
      rw [h.parts, List.mem_reverse] at hname
      exact h.notUp hname
    simp only [isPart, Bool.and_eq_true, bne_iff_ne] at his
    exact ⟨his.1, his.2, hup, hslash⟩

end Path

namespace NormalText

variable {text : String} {anchor : Anchor} {names : List String}

theorem isPlain (h : NormalText text anchor names) :
    ∀ name ∈ names, Path.isPart name = true ∧ '/' ∉ name.toList ∧ name ≠ ".." := by
  intro name hname
  obtain ⟨hempty, hdot, hup, hslash⟩ := h.named name hname
  exact ⟨by simp [Path.isPart, hempty, hdot], hslash, hup⟩

theorem isAbsolute (h : NormalText text anchor names) :
    Path.isAbsolute ⟨anchor, names⟩ = true := by
  rcases h.rooted with rfl | rfl <;> rfl

theorem up_not_mem (h : NormalText text anchor names) : ".." ∉ names :=
  fun hmem => (h.named _ hmem).2.2.1 rfl

theorem ofText_eq (h : NormalText text anchor names) : Path.ofText text = ⟨anchor, names⟩ := by
  have hread : Path.IsRead ⟨anchor, names⟩ := fun name hname =>
    ⟨(h.isPlain name hname).1, (h.isPlain name hname).2.1⟩
  rw [h.spelled, ← Path.text_of_isAbsolute h.isAbsolute, Path.ofText_text hread]

theorem text_ofText (h : NormalText text anchor names) : (Path.ofText text).text = text := by
  rw [h.ofText_eq, Path.text_of_isAbsolute h.isAbsolute, ← h.spelled]

theorem lexical_ofText (h : NormalText text anchor names) :
    (Path.ofText text).lexical = Path.ofText text := by
  have hparts := Path.parts_lexical h.isAbsolute
  rw [Path.stackParts_of_notUp [] h.up_not_mem, List.append_nil, List.reverse_reverse] at hparts
  rw [h.ofText_eq]
  calc Path.lexical ⟨anchor, names⟩
      = ⟨anchor, (Path.lexical ⟨anchor, names⟩).parts⟩ := rfl
    _ = ⟨anchor, names⟩ := by rw [hparts]

theorem absoluteFrom_ofText (h : NormalText text anchor names) (cwd : Option Path) :
    PathArgument.absoluteFrom cwd (.ofText text) = .ok text := by
  have habsolute : (Path.ofText text).isAbsolute = true := by
    rw [h.ofText_eq]
    exact h.isAbsolute
  unfold PathArgument.absoluteFrom
  rw [if_pos habsolute, h.lexical_ofText, h.text_ofText]

theorem head?_eq (h : NormalText text anchor names) : text.toList.head? = some '/' := by
  rw [h.spelled]
  rcases h.rooted with rfl | rfl <;> simp [Anchor.text]

theorem getLast?_ne (h : NormalText text anchor names) (hne : text ≠ anchor.text) :
    text.toList.getLast? ≠ some '/' := by
  have hnames : names ≠ [] := by
    rintro rfl
    exact hne (by rw [h.spelled, String.intercalate_nil, String.append_empty])
  obtain ⟨c, hlast, hc⟩ := getLast?_intercalate hnames fun name hname =>
    ⟨(h.named name hname).1, (h.named name hname).2.2.2⟩
  rw [h.spelled, String.toList_append, List.getLast?_append, hlast]
  simpa using hc

/-- The absolute form of a path, seen from a directory whose text is in normal form. It is rooted as
the path is, or else as the directory, and its names are those of the path stacked on those of the
directory, on nothing if the path is absolute. -/
theorem absoluteFrom_eq (h : NormalText text anchor names) (seen : String) :
    ∃ stored, PathArgument.absoluteFrom (some (.ofText text)) (.ofText seen) = .ok stored ∧
      NormalText stored
        (if (Path.ofText seen).isAbsolute then (Path.ofText seen).anchor else anchor)
        (Path.stackParts (if (Path.ofText seen).isAbsolute then [] else names.reverse)
          (Path.ofText seen).parts).reverse := by
  have hread := Path.isRead_ofText seen
  by_cases habsolute : (Path.ofText seen).isAbsolute = true
  · have hparts := Path.parts_lexical habsolute
    have hcollapsed : (Path.ofText seen).lexical.IsCollapsed
        (Path.stackParts [] (Path.ofText seen).parts) :=
      Path.isCollapsed_stackParts (by simp) hread habsolute hparts
    refine ⟨_, if_pos habsolute, ?_⟩
    rw [if_pos habsolute, if_pos habsolute, ← hparts]
    exact hcollapsed.normalText
  · have hrelative : (Path.ofText seen).isAbsolute = false := Bool.eq_false_iff.mpr habsolute
    have hbase : ∀ part ∈ names.reverse,
        Path.isPart part = true ∧ '/' ∉ part.toList ∧ part ≠ ".." := fun part hpart =>
      h.isPlain part (List.mem_reverse.mp hpart)
    have hdirectory := h.isAbsolute
    rw [h.ofText_eq]
    have hparts := Path.parts_absolute hdirectory h.up_not_mem hrelative
    have hcollapsed := Path.isCollapsed_stackParts hbase hread
      (Path.isAbsolute_absolute hdirectory _) hparts
    have hanchor : (Path.absolute ⟨anchor, names⟩ (.ofText seen)).anchor = anchor := by
      have hno : (Path.ofText seen).anchor = .relative := by
        simpa [Path.isAbsolute] using hrelative
      simp [Path.absolute, Path.join, hno]
    refine ⟨_, if_neg habsolute, ?_⟩
    rw [if_neg habsolute, if_neg habsolute, ← hparts]
    have hnormal := hcollapsed.normalText
    rw [hanchor] at hnormal
    exact hnormal

end NormalText
end Reclaim
