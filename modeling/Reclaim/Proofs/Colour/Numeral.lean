import Mathlib.Data.List.DropRight
import Reclaim.Colour

/-!
Which texts are colour codes. The check reads what follows the number sign as a number in base
sixteen, and the grammar of these numbers is wider than six or three hexadecimal digits: one may
have blanks around it, a sign, a mark, underscores between its digits, and digits of other scripts.
A code without any of these is accepted exactly if it consists of hexadecimal digits.
-/

namespace Reclaim

namespace Text

theorem stripEnd_eq (cs : List Char) : stripEnd cs = cs.rdropWhile isBlank := rfl

theorem stripChars_stripChars (cs : List Char) : stripChars (stripChars cs) = stripChars cs := by
  have hhead : (stripChars cs).dropWhile isBlank = stripChars cs := by
    cases hstrip : stripChars cs with
    | nil => rfl
    | cons c rest =>
        obtain ⟨tail, htail⟩ : stripChars cs <+: cs.dropWhile isBlank :=
          List.rdropWhile_prefix isBlank _
        have hfirst := List.head?_dropWhile_not isBlank cs
        rw [← htail, hstrip] at hfirst
        exact List.dropWhile_cons_of_neg (by simpa using hfirst)
  rw [stripChars, hhead, stripChars, stripEnd_eq, stripEnd_eq, List.rdropWhile_idempotent]

theorem strip_strip (s : String) : strip (strip s) = strip s := by
  rw [strip, toList_strip, stripChars_stripChars, ← strip]

end Text

namespace Colour

/-- Digits, with single underscores between them if any, and then gaps. -/
inductive Spelled : List Char → Prop
  | last {c : Char} {gaps : List Char} (digit : isHexDigit c = true)
      (blank : ∀ g ∈ gaps, isGap g = true) : Spelled (c :: gaps)
  | next {c : Char} {cs : List Char} (digit : isHexDigit c = true) (more : Spelled cs) :
      Spelled (c :: cs)
  | spaced {c : Char} {cs : List Char} (digit : isHexDigit c = true) (more : Spelled cs) :
      Spelled (c :: '_' :: cs)

def signs : List (List Char) := [[], ['+'], ['-']]

def marks : List (List Char) :=
  [[], ['0', 'x'], ['0', 'X'], ['0', 'x', '_'], ['0', 'X', '_']]

inductive Numeral : List Char → Prop
  | mk {before sign mark digits : List Char} (blank : ∀ g ∈ before, isGap g = true)
      (signed : sign ∈ signs) (marked : mark ∈ marks) (spelled : Spelled digits) :
      Numeral (before ++ (sign ++ (mark ++ digits)))

/-- A code whose three or six characters after the number sign read as a number. -/
def IsNumeral (code : String) : Prop :=
  ∃ digits plain, code.toList = '#' :: digits ∧ (digits.length = 3 ∨ digits.length = 6) ∧
    digits.mapM plain? = some plain ∧ Numeral plain

def IsCode (code : String) : Prop :=
  ∃ digits, code.toList = '#' :: digits ∧ (digits.length = 3 ∨ digits.length = 6) ∧
    ∀ c ∈ digits, isHexDigit c = true

def Loose (c : Char) : Prop :=
  c ∈ ['+', '-', '_', 'x', 'X'] ∨ isGap c = true ∨ 127 ≤ c.toNat

theorem isHexDigit_iff (c : Char) :
    isHexDigit c = true ↔ 48 ≤ c.toNat ∧ c.toNat ≤ 57 ∨ 97 ≤ c.toNat ∧ c.toNat ≤ 102 ∨
      65 ≤ c.toNat ∧ c.toNat ≤ 70 := by
  simp only [isHexDigit, Char.isDigit, Bool.or_eq_true, Bool.and_eq_true, decide_eq_true_eq,
    Char.le_def, or_assoc]
  exact Iff.rfl

theorem isGap_iff (c : Char) :
    isGap c = true ↔ c.toNat = 32 ∨ 9 ≤ c.toNat ∧ c.toNat ≤ 13 := by
  simp [isGap, ← Char.toNat_inj]

theorem not_loose_of_isHexDigit {c : Char} (h : isHexDigit c = true) : ¬Loose c := by
  rw [isHexDigit_iff] at h
  simp [Loose, isGap_iff, ← Char.toNat_inj]
  omega

theorem isHexDigit_ne {c d : Char} (h : isHexDigit c = true) (loose : Loose d) : c ≠ d := by
  rintro rfl
  exact not_loose_of_isHexDigit h loose

theorem not_isGap_of_isHexDigit {c : Char} (h : isHexDigit c = true) : ¬isGap c = true :=
  fun hgap => not_loose_of_isHexDigit h (.inr (.inl hgap))

theorem Spelled.head {cs : List Char} (h : Spelled cs) :
    ∃ c more, cs = c :: more ∧ isHexDigit c = true := by
  cases h with
  | last digit blank => exact ⟨_, _, rfl, digit⟩
  | next digit more => exact ⟨_, _, rfl, digit⟩
  | spaced digit more => exact ⟨_, _, rfl, digit⟩

/-- The reader of digits takes what is spelled; just after a digit also gaps, and what is spelled
after an underscore. -/
theorem isDigits_iff (cs : List Char) :
    (isDigits false cs = true ↔ Spelled cs) ∧
      (isDigits true cs = true ↔ (∀ g ∈ cs, isGap g = true) ∨ Spelled cs ∨
        ∃ more, cs = '_' :: more ∧ Spelled more) := by
  induction cs with
  | nil =>
      have hno : ¬Spelled [] := nofun
      simp [isDigits, hno]
  | cons c cs ih =>
      obtain ⟨ihFresh, ihAfter⟩ := ih
      by_cases hdigit : isHexDigit c = true
      · have hspelled : isDigits true cs = true ↔ Spelled (c :: cs) := by
          rw [ihAfter]
          constructor
          · rintro (hgaps | hmore | ⟨more, rfl, hmore⟩)
            · exact .last hdigit hgaps
            · exact .next hdigit hmore
            · exact .spaced hdigit hmore
          · rintro (⟨-, hgaps⟩ | ⟨-, hmore⟩ | ⟨-, hmore⟩)
            · exact .inl hgaps
            · exact .inr (.inl hmore)
            · exact .inr (.inr ⟨_, rfl, hmore⟩)
        have hline : c ≠ '_' := isHexDigit_ne hdigit (.inl (by decide))
        have hgap := not_isGap_of_isHexDigit hdigit
        rw [isDigits, if_pos hdigit, isDigits, if_pos hdigit, hspelled]
        simp [hline, hgap]
      · have hno : ¬Spelled (c :: cs) := by
          intro h
          obtain ⟨_, _, heq, hd⟩ := h.head
          exact hdigit ((List.cons.inj heq).1 ▸ hd)
        by_cases hline : c = '_'
        · have hgap : ¬isGap '_' = true := by decide
          rw [isDigits, if_neg hdigit, if_pos hline, isDigits, if_neg hdigit, if_pos hline]
          subst hline
          simp [hno, hgap, ihFresh]
        · rw [isDigits, if_neg hdigit, if_neg hline, isDigits, if_neg hdigit, if_neg hline]
          simp [hno, hline]

theorem exists_sign (cs : List Char) : ∃ sign ∈ signs, cs = sign ++ dropSign cs := by
  unfold dropSign
  split
  · exact ⟨['+'], by decide, rfl⟩
  · exact ⟨['-'], by decide, rfl⟩
  · exact ⟨[], by decide, rfl⟩

theorem exists_mark (cs : List Char) : ∃ mark ∈ marks, cs = mark ++ dropMark cs := by
  unfold dropMark
  split
  · exact ⟨['0', 'x', '_'], by decide, rfl⟩
  · exact ⟨['0', 'X', '_'], by decide, rfl⟩
  · exact ⟨['0', 'x'], by decide, rfl⟩
  · exact ⟨['0', 'X'], by decide, rfl⟩
  · exact ⟨[], by decide, rfl⟩

/-- What is spelled has no mark: after its first digit there is a digit, a gap or an underscore. -/
theorem Spelled.second {c d : Char} {cs : List Char} (h : Spelled (c :: d :: cs)) :
    d ≠ 'x' ∧ d ≠ 'X' := by
  cases h with
  | last digit blank =>
      have hgap := blank d List.mem_cons_self
      constructor <;> rintro rfl <;> exact absurd hgap (by decide)
  | next digit more =>
      obtain ⟨e, _, heq, hdigit⟩ := more.head
      obtain rfl := (List.cons.inj heq).1
      exact ⟨isHexDigit_ne hdigit (.inl (by decide)), isHexDigit_ne hdigit (.inl (by decide))⟩
  | spaced digit more => decide

theorem dropMark_spelled {mark digits : List Char} (marked : mark ∈ marks)
    (spelled : Spelled digits) : dropMark (mark ++ digits) = digits := by
  obtain ⟨c, more, rfl, hdigit⟩ := spelled.head
  have hline : c ≠ '_' := isHexDigit_ne hdigit (.inl (by decide))
  simp only [marks, List.mem_cons, List.not_mem_nil, or_false] at marked
  rcases marked with rfl | rfl | rfl | rfl | rfl
  · -- no mark stands before the digits, so none is found
    have hsecond : ∀ rest, more ≠ 'x' :: rest ∧ more ≠ 'X' :: rest := by
      intro rest
      constructor <;> rintro rfl
      · exact spelled.second.1 rfl
      · exact spelled.second.2 rfl
    unfold dropMark
    split <;> simp_all
  · unfold dropMark
    split <;> simp_all
  · unfold dropMark
    split <;> simp_all
  · rfl
  · rfl

theorem dropSign_of_digit {sign : List Char} {c : Char} {cs : List Char} (signed : sign ∈ signs)
    (digit : isHexDigit c = true) : dropSign (sign ++ c :: cs) = c :: cs := by
  simp only [signs, List.mem_cons, List.not_mem_nil, or_false] at signed
  rcases signed with rfl | rfl | rfl
  · have hplus : c ≠ '+' := isHexDigit_ne digit (.inl (by decide))
    have hminus : c ≠ '-' := isHexDigit_ne digit (.inl (by decide))
    unfold dropSign
    split <;> simp_all
  · rfl
  · rfl

/-- After the gaps a number begins with its sign, or else with a digit: that of its mark or its
first. -/
theorem isDigits_of_plain {cs : List Char} :
    isDigits false (dropMark (dropSign (cs.dropWhile isGap))) = true ↔ Numeral cs := by
  rw [(isDigits_iff _).1]
  constructor
  · intro spelled
    obtain ⟨sign, signed, hsign⟩ := exists_sign (cs.dropWhile isGap)
    obtain ⟨mark, marked, hmark⟩ := exists_mark (dropSign (cs.dropWhile isGap))
    have h : Numeral (cs.takeWhile isGap ++
        (sign ++ (mark ++ dropMark (dropSign (cs.dropWhile isGap))))) :=
      .mk (fun g hg => List.mem_takeWhile_imp hg) signed marked spelled
    rwa [← hmark, ← hsign, List.takeWhile_append_dropWhile] at h
  · rintro ⟨blank, signed, marked, spelled⟩
    rename_i before sign mark digits
    obtain ⟨c, rest, hfirst, digit⟩ : ∃ c rest, mark ++ digits = c :: rest ∧
        isHexDigit c = true := by
      obtain ⟨c, more, rfl, digit⟩ := spelled.head
      simp only [marks, List.mem_cons, List.not_mem_nil, or_false] at marked
      rcases marked with rfl | rfl | rfl | rfl | rfl
      · exact ⟨c, more, rfl, digit⟩
      all_goals exact ⟨'0', _, rfl, by decide⟩
    have hgap : (sign ++ c :: rest).dropWhile isGap = sign ++ c :: rest := by
      simp only [signs, List.mem_cons, List.not_mem_nil, or_false] at signed
      rcases signed with rfl | rfl | rfl
      · simp [not_isGap_of_isHexDigit digit]
      · rfl
      · rfl
    rw [List.dropWhile_append_of_pos blank, hfirst, hgap, dropSign_of_digit signed digit, ← hfirst,
      dropMark_spelled marked spelled]
    exact spelled

theorem isHexNumber_iff {cs : List Char} :
    isHexNumber cs = true ↔ ∃ plain, cs.mapM plain? = some plain ∧ Numeral plain := by
  unfold isHexNumber
  cases cs.mapM plain? with
  | none => simp
  | some plain => simp [isDigits_of_plain]

/-- The check takes a text exactly if it is a number sign with a number when it is stripped, and
answers the stripped text. -/
theorem ofText_eq_ok_iff {text code : String} :
    ofText text = .ok code ↔ code = Text.strip text ∧ IsNumeral code := by
  have hcode {digits : List Char} (h : Text.stripChars text.toList = '#' :: digits) :
      String.ofList ('#' :: digits) = Text.strip text := by rw [Text.strip, h]
  unfold ofText
  constructor
  · intro h
    split at h
    · rename_i digits hstrip
      split at h
      · cases h
      · rename_i hlength
        split at h
        · rename_i hnumber
          cases h
          obtain ⟨plain, hplain, numeral⟩ := isHexNumber_iff.mp hnumber
          exact ⟨hcode hstrip, digits, plain, String.toList_ofList, by omega, hplain, numeral⟩
        · cases h
    · cases h
  · rintro ⟨rfl, digits, plain, hdigits, hlength, hplain, numeral⟩
    have hstrip : Text.stripChars text.toList = '#' :: digits := by
      rw [← Text.toList_strip, hdigits]
    have hnumber : isHexNumber digits = true := isHexNumber_iff.mpr ⟨plain, hplain, numeral⟩
    have hlong : ¬(digits.length ≠ 3 ∧ digits.length ≠ 6) := by omega
    simp only [hstrip, if_neg hlong, hnumber, if_true, hcode hstrip]

theorem mapM_plain? {cs : List Char} (h : ∀ c ∈ cs, c.toNat < 127) :
    cs.mapM plain? = some cs := by
  induction cs with
  | nil => rfl
  | cons c cs ih =>
      obtain ⟨hc, hcs⟩ := List.forall_mem_cons.mp h
      simp [plain?, hc, ih hcs]

theorem spelled_of_digits {cs : List Char} (hne : cs ≠ []) (h : ∀ c ∈ cs, isHexDigit c = true) :
    Spelled cs := by
  induction cs with
  | nil => exact absurd rfl hne
  | cons c cs ih =>
      obtain ⟨hc, hcs⟩ := List.forall_mem_cons.mp h
      cases cs with
      | nil => exact .last hc (by simp)
      | cons d cs => exact .next hc (ih (by simp) hcs)

theorem IsCode.isNumeral {code : String} (h : IsCode code) : IsNumeral code := by
  obtain ⟨digits, hcode, hlength, hdigits⟩ := h
  have hsmall : ∀ c ∈ digits, c.toNat < 127 := by
    intro c hc
    have hloose := not_loose_of_isHexDigit (hdigits c hc)
    simp only [Loose, not_or] at hloose
    omega
  have hne : digits ≠ [] := by
    rintro rfl
    simp at hlength
  refine ⟨digits, digits, hcode, hlength, mapM_plain? hsmall, ?_⟩
  have hblank : ∀ g ∈ ([] : List Char), isGap g = true := by simp
  have hsign : [] ∈ signs := by decide
  have hmark : [] ∈ marks := by decide
  exact .mk hblank hsign hmark (spelled_of_digits hne hdigits)

theorem Spelled.digit_or_loose {cs : List Char} (h : Spelled cs) :
    ∀ c ∈ cs, isHexDigit c = true ∨ Loose c := by
  induction h with
  | last digit blank =>
      exact List.forall_mem_cons.mpr ⟨.inl digit, fun g hg => .inr (.inr (.inl (blank g hg)))⟩
  | next digit more ih => exact List.forall_mem_cons.mpr ⟨.inl digit, ih⟩
  | spaced digit more ih =>
      have hline : Loose '_' := .inl (by decide)
      exact List.forall_mem_cons.mpr ⟨.inl digit, List.forall_mem_cons.mpr ⟨.inr hline, ih⟩⟩

theorem Numeral.digit_or_loose {cs : List Char} (h : Numeral cs) :
    ∀ c ∈ cs, isHexDigit c = true ∨ Loose c := by
  obtain ⟨blank, signed, marked, spelled⟩ := h
  have hzero : isHexDigit '0' = true := rfl
  have hsigns : ∀ sign ∈ signs, ∀ c ∈ sign, c ∈ ['+', '-', '_', 'x', 'X'] := by simp [signs]
  have hmarks : ∀ mark ∈ marks, ∀ c ∈ mark,
      isHexDigit c = true ∨ c ∈ ['+', '-', '_', 'x', 'X'] := by simp [marks, hzero]
  intro c hc
  simp only [List.mem_append] at hc
  rcases hc with hc | hc | hc | hc
  · exact .inr (.inr (.inl (blank c hc)))
  · exact .inr (.inl (hsigns _ signed c hc))
  · exact (hmarks _ marked c hc).imp_right .inl
  · exact spelled.digit_or_loose c hc

theorem isNumeral_iff_isCode {code : String} (h : ∀ c ∈ code.toList, ¬Loose c) :
    IsNumeral code ↔ IsCode code := by
  constructor
  · rintro ⟨digits, plain, hcode, hlength, hplain, numeral⟩
    have hstrict : ∀ c ∈ digits, ¬Loose c := fun c hc => h c (by simp [hcode, hc])
    have hsmall : ∀ c ∈ digits, c.toNat < 127 := by
      intro c hc
      have hloose := hstrict c hc
      simp only [Loose, not_or] at hloose
      omega
    obtain rfl : digits = plain := Option.some.inj ((mapM_plain? hsmall).symm.trans hplain)
    exact ⟨digits, hcode, hlength, fun c hc =>
      (numeral.digit_or_loose c hc).resolve_right (hstrict c hc)⟩
  · exact IsCode.isNumeral

end Colour
end Reclaim
