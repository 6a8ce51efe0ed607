import Mathlib.Data.List.Induction
import Reclaim.Proofs.Path.Absolute

/-!
The absolute form of a path as a stack of parts, the innermost on top, as in a place. A part is put
on the stack and a pair of dots takes the top away. Nothing else is on the stack but parts of the
path and of the directory that it is seen from.
-/

namespace Reclaim

namespace Path

def stackPart (stack : List String) (part : String) : List String :=
  if part = ".." then stack.tail else part :: stack

def stackParts (stack parts : List String) : List String :=
  parts.foldl stackPart stack

theorem stackParts_up (stack parts : List String) :
    stackParts stack (parts ++ [".."]) = (stackParts stack parts).tail := by
  simp [stackParts, stackPart]

theorem stackParts_name (stack parts : List String) {name : String} (h : name ≠ "..") :
    stackParts stack (parts ++ [name]) = name :: stackParts stack parts := by
  simp [stackParts, stackPart, h]

theorem stackParts_of_notUp (stack : List String) {parts : List String} (h : ".." ∉ parts) :
    stackParts stack parts = parts.reverse ++ stack := by
  induction parts using List.reverseRecOn with
  | nil => rfl
  | append_singleton parts part ih =>
      obtain ⟨hparts, hpart⟩ := not_or.mp (mt List.mem_append.mpr h)
      have hname : part ≠ ".." := fun h => hpart (h ▸ List.mem_singleton_self part)
      rw [stackParts_name stack parts hname, ih hparts]
      simp

theorem mem_stackParts {stack parts : List String} {part : String}
    (h : part ∈ stackParts stack parts) : part ∈ stack ∨ part ∈ parts ∧ part ≠ ".." := by
  induction parts using List.reverseRecOn with
  | nil => exact .inl h
  | append_singleton parts last ih =>
      have hrest : part ∈ stackParts stack parts →
          part ∈ stack ∨ part ∈ parts ++ [last] ∧ part ≠ ".." := fun h =>
        (ih h).imp_right fun h => ⟨List.mem_append_left _ h.1, h.2⟩
      by_cases hup : last = ".."
      · subst hup
        rw [stackParts_up] at h
        exact hrest (List.mem_of_mem_tail h)
      · rw [stackParts_name stack parts hup] at h
        rcases List.mem_cons.mp h with rfl | h
        · exact .inr ⟨by simp, hup⟩
        · exact hrest h

/-- Parts are collapsed onto a stack that holds no pair of dots as they are stacked. -/
theorem collapse_eq_stackParts {taken : List String} (h : ".." ∉ taken) (parts : List String) :
    collapse true taken parts = (stackParts taken parts).reverse := by
  induction parts generalizing taken with
  | nil => rfl
  | cons part rest ih =>
      show collapse true taken (part :: rest) = (stackParts (stackPart taken part) rest).reverse
      unfold collapse stackPart
      by_cases hup : part = ".."
      · rw [if_pos hup, if_pos hup]
        cases taken with
        | nil => exact ih h
        | cons top below =>
            obtain ⟨htop, hbelow⟩ := not_or.mp (mt List.mem_cons.mpr h)
            simp only [if_neg (Ne.symm htop)]
            exact ih hbelow
      · rw [if_neg hup, if_neg hup]
        exact ih (by simp [Ne.symm hup, h])

theorem parts_lexical {p : Path} (h : p.isAbsolute = true) :
    p.lexical.parts = (stackParts [] p.parts).reverse := by
  show collapse p.isAbsolute [] p.parts = _
  rw [h]
  exact collapse_eq_stackParts List.not_mem_nil p.parts

/-- What the parts of a relative path are stacked on is the directory that it is seen from. -/
theorem parts_absolute {directory : Path} (hdirectory : directory.isAbsolute = true)
    (hup : ".." ∉ directory.parts) {p : Path} (hp : p.isAbsolute = false) :
    (directory.absolute p).parts = (stackParts directory.parts.reverse p.parts).reverse := by
  have hanchor : p.anchor = .relative := by simpa [isAbsolute] using hp
  have hparts : (directory.join p).parts = directory.parts ++ p.parts := by
    simp [join, hanchor]
  have habsolute : (directory.join p).isAbsolute = true := isAbsolute_absolute hdirectory p
  show (directory.join p).lexical.parts = _
  have hstack : stackParts [] directory.parts = directory.parts.reverse := by
    simpa using stackParts_of_notUp [] hup
  rw [parts_lexical habsolute, hparts, stackParts, List.foldl_append]
  exact congrArg (fun stack => (stackParts stack p.parts).reverse) hstack

structure IsCollapsed (p : Path) (stack : List String) : Prop where
  isRead : p.IsRead
  isAbsolute : p.isAbsolute = true
  parts : p.parts = stack.reverse
  notUp : ".." ∉ stack

theorem isCollapsed_stackParts {base : List String} {p q : Path}
    (hbase : ∀ part ∈ base, isPart part = true ∧ '/' ∉ part.toList ∧ part ≠ "..")
    (hp : p.IsRead) (habsolute : q.isAbsolute = true)
    (hparts : q.parts = (stackParts base p.parts).reverse) :
    q.IsCollapsed (stackParts base p.parts) where
  isRead part hpart := by
    rw [hparts, List.mem_reverse] at hpart
    rcases mem_stackParts hpart with hmem | ⟨hpart, -⟩
    · exact ⟨(hbase part hmem).1, (hbase part hmem).2.1⟩
    · exact hp part hpart
  isAbsolute := habsolute
  parts := hparts
  notUp hmem := by
    rcases mem_stackParts hmem with hmem | ⟨-, hup⟩
    · exact (hbase _ hmem).2.2 rfl
    · exact hup rfl

theorem IsCollapsed.text_root {p : Path} (h : p.IsCollapsed []) : p.text = "/" ∨ p.text = "//" := by
  have habsolute := h.isAbsolute
  have hparts : p.parts = [] := h.parts
  cases hanchor : p.anchor <;> simp [Path.isAbsolute, hanchor] at habsolute <;>
    simp [Path.text, hanchor, hparts, Anchor.text]

theorem parts_ofText_text {p : Path} (h : p.IsRead) : (ofText p.text).parts = p.parts := by
  obtain ⟨lead, hlead, hcomponents⟩ := components_text h
  show (components p.text).filter isPart = p.parts
  rw [hcomponents, List.filter_append, List.filter_eq_nil_iff.mpr (by simpa using hlead),
    List.nil_append, List.filter_eq_self]
  exact fun part hpart => (h part hpart).1

theorem isAbsolute_ofText_text {p : Path} (h : p.IsRead) :
    (ofText p.text).isAbsolute = p.isAbsolute := by
  rw [Bool.eq_iff_iff, isAbsolute_ofText, head?_text h]

theorem ofChars_append (anchor : Anchor) {cs : List Char} (h : cs.head? ≠ some '/') :
    Anchor.ofChars (anchor.text.toList ++ cs) = anchor := by
  cases cs with
  | nil => cases anchor <;> rfl
  | cons c cs =>
      have hc : c ≠ '/' := by simpa using h
      cases anchor <;> simp [Anchor.text, Anchor.ofChars, hc]

/-- A path that has been read is read again from its own text. -/
theorem ofText_text {p : Path} (h : p.IsRead) : ofText p.text = p := by
  obtain ⟨body, htext, hbody⟩ := p.exists_body
  have hhead : body.toList.head? ≠ some '/' := by
    rcases hbody with ⟨rfl, -⟩ | rfl
    · decide
    · exact head?_intercalate h
  have hanchor : (ofText p.text).anchor = p.anchor := by
    show Anchor.ofChars p.text.toList = p.anchor
    rw [htext, String.toList_append, ofChars_append p.anchor hhead]
  calc ofText p.text
      = ⟨(ofText p.text).anchor, (ofText p.text).parts⟩ := rfl
    _ = p := by rw [hanchor, parts_ofText_text h]

end Path
end Reclaim
