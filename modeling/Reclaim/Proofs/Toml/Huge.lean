import Reclaim.Proofs.Toml.Writing

/-!
Integers that are too long. A decimal integer of more digits than are accepted ends the reading of a
document where it stands, whatever follows it; that the rest is no document is not found out.
-/

namespace Reclaim.Toml

/-- The digits of a decimal integer that is too long, the first of them not a zero. -/
structure IsHuge (number : List Char) : Prop where
  digits : ∀ c ∈ number, c.isDigit = true
  nonzero : number.head? ≠ some '0'
  long : maxIntegerDigits < number.length

section

variable {number rest : List Char} {a b c d e : Char}

theorem digit_ne (hc : c.isDigit = true) (hd : d.isDigit = false) : c ≠ d := by
  rintro rfl
  simp [hc] at hd

theorem IsHuge.exists_cons (h : IsHuge number) : ∃ a b c d e more,
    number = a :: b :: c :: d :: e :: more ∧ a ≠ '0' := by
  have hlong : 4300 < number.length := h.long
  match number with
  | a :: b :: c :: d :: e :: more => exact ⟨a, b, c, d, e, more, rfl, by simpa using h.nonzero⟩
  | [] | [_] | [_, _] | [_, _, _] | [_, _, _, _] => simp at hlong

theorem moreDigits_line (h : ∀ c ∈ number, c.isDigit = true) :
    moreDigits Char.isDigit (number ++ '\n' :: rest) = (number, '\n' :: rest) := by
  induction number with
  | nil => rfl
  | cons c number ih =>
      obtain ⟨hc, hnumber⟩ := List.forall_mem_cons.mp h
      have hline : c ≠ '_' := digit_ne hc rfl
      rw [List.cons_append, moreDigits.eq_def]
      split
      · rename_i heq
        exact absurd (List.cons.inj heq).1 hline
      · rename_i heq
        obtain ⟨rfl, rfl⟩ := List.cons.inj heq
        simp [hc, ih hnumber]
      · rename_i heq
        cases heq

theorem digits?_line (h : ∀ c ∈ number, c.isDigit = true) (hne : number ≠ []) :
    digits? Char.isDigit (number ++ '\n' :: rest) = some (number, '\n' :: rest) := by
  cases number with
  | nil => exact absurd rfl hne
  | cons c number =>
      obtain ⟨hc, hnumber⟩ := List.forall_mem_cons.mp h
      simp [digits?, hc, moreDigits_line hnumber]

theorem fixedDigits?_rest {count n : Nat} {cs rest : List Char}
    (h : fixedDigits? count cs = some (n, rest)) : rest = cs.drop count := by
  simp only [fixedDigits?] at h
  split at h
  · cases h
    rfl
  · cases h

theorem twoDigits?_rest {low high n : Nat} {cs rest : List Char}
    (h : twoDigits? low high cs = some (n, rest)) : rest = cs.drop 2 := by
  unfold twoDigits? at h
  split at h
  · rename_i hfixed
    split at h
    · cases h
      exact fixedDigits?_rest hfixed
    · cases h
  · cases h

theorem date?_of_digits (he : e.isDigit = true) (more : List Char) :
    date? (a :: b :: c :: d :: e :: more) = none := by
  have hdash : e ≠ '-' := digit_ne he rfl
  unfold date?
  cases hyear : fixedDigits? 4 (a :: b :: c :: d :: e :: more) with
  | none => rfl
  | some read =>
      obtain ⟨year, after⟩ := read
      obtain rfl := fixedDigits?_rest hyear
      simp [expect?, hdash]

theorem time?_of_digits (hc : c.isDigit = true) (more : List Char) :
    time? (a :: b :: c :: more) = none := by
  have hcolon : c ≠ ':' := digit_ne hc rfl
  unfold time?
  cases hhour : twoDigits? 0 23 (a :: b :: c :: more) with
  | none => rfl
  | some read =>
      obtain ⟨hour, after⟩ := read
      obtain rfl := twoDigits?_rest hhour
      simp [expect?, hcolon]

theorem number?_of_huge (h : IsHuge number) (rest : List Char) :
    number? (number ++ '\n' :: rest) = some (.error .hugeInteger) := by
  obtain ⟨a, b, c, d, e, more, hnumber, hzero⟩ := h.exists_cons
  have ha : a.isDigit = true := h.digits a (by simp [hnumber])
  have hplus : a ≠ '+' := digit_ne ha rfl
  have hminus : a ≠ '-' := digit_ne ha rfl
  have hread : digits? Char.isDigit (number ++ '\n' :: rest) = some (number, '\n' :: rest) :=
    digits?_line h.digits (by simp [hnumber])
  have hlong : maxIntegerDigits < number.length := h.long
  have hbased : basedInteger? (number ++ '\n' :: rest) = none := by
    rw [hnumber, basedInteger?.eq_def]
    split
    · rename_i heq
      exact absurd (List.cons.inj heq).1 hzero
    · rfl
  have hsign : splitSign (number ++ '\n' :: rest) = (false, number ++ '\n' :: rest) := by
    rw [hnumber, splitSign.eq_def]
    split
    · rename_i heq
      exact absurd (List.cons.inj heq).1 hminus
    · rename_i heq
      exact absurd (List.cons.inj heq).1 hplus
    · rfl
  have hwhole : wholePart? (number ++ '\n' :: rest) = some (number, '\n' :: rest) := by
    rw [← hread, hnumber, wholePart?.eq_def]
    split
    · rename_i heq
      exact absurd (List.cons.inj heq).1 hzero
    · rfl
  simp only [number?, hbased, decimalNumber?, hsign, hwhole]
  simp [skipFraction, skipExponent, hlong]

theorem readValue_of_huge (h : IsHuge number) (fuel : Nat) :
    readValue (fuel + 1) (number ++ '\n' :: rest) = .error .hugeInteger := by
  have hread := number?_of_huge h rest
  obtain ⟨a, b, c, d, e, more, hnumber, -⟩ := h.exists_cons
  have ha : a.isDigit = true := h.digits a (by simp [hnumber])
  have hc : c.isDigit = true := h.digits c (by simp [hnumber])
  have he : e.isDigit = true := h.digits e (by simp [hnumber])
  have hmoment : moment? (number ++ '\n' :: rest) = none := by
    simp [hnumber, moment?, date?_of_digits he, time?_of_digits hc]
  rw [readValue.eq_def]
  simp only
  split
  case h_7 => simp only [hmoment, hread]
  all_goals
    rename_i heq
    rw [hnumber] at heq
    obtain rfl := (List.cons.inj heq).1
    exact absurd ha (by decide)

end

section lines

variable {key : String} {number more : List Char}

theorem readPair_of_huge (hkey : IsBareKey key) (h : IsHuge number) (more : List Char)
    (p : Progress) :
    readPair p (key.toList ++ ' ' :: '=' :: ' ' :: (number ++ '\n' :: more)) =
      .error .hugeInteger := by
  have hgap : skipGaps (' ' :: (number ++ '\n' :: more)) = number ++ '\n' :: more := by
    obtain ⟨a, b, c, d, e, rest, hnumber, -⟩ := h.exists_cons
    have ha : a.isDigit = true := h.digits a (by simp [hnumber])
    have hfirst : isGap a = false := by
      simp [isGap, digit_ne ha (d := ' ') rfl, digit_ne ha (d := '\t') rfl]
    have hspace : isGap ' ' = true := rfl
    simp [skipGaps, hnumber, hfirst, hspace]
  rw [readPair, readKey_bare hkey]
  simp only [bind, Except.bind, hgap, readValue_of_huge h]

def numberedText (key : String) (number more : List Char) : String :=
  String.ofList (key.toList ++ ' ' :: '=' :: ' ' :: (number ++ '\n' :: more))

theorem not_mem_numberedText (hkey : IsBareKey key) (h : IsHuge number) (hmore : '\r' ∉ more) :
    '\r' ∉ (numberedText key number more).toList := by
  have hletters : '\r' ∉ key.toList := fun hmem => (bare_ne (hkey.bare _ hmem)).2.2.2.2.1 rfl
  have hdigits : '\r' ∉ number := fun hmem => digit_ne (h.digits _ hmem) (d := '\r') rfl rfl
  simp [numberedText, hletters, hdigits, hmore]

/-- An integer that is too long is all that is found in a document that begins with it. -/
theorem read_of_huge (hkey : IsBareKey key) (h : IsHuge number) (hmore : '\r' ∉ more) :
    read (numberedText key number more) = .error .hugeInteger := by
  obtain ⟨c, rest, hcons, hc⟩ := hkey.exists_cons
  obtain ⟨hnewline, hcomment, -, -, -, hgap⟩ := bare_ne hc
  have hpair := readPair_of_huge hkey h more .start
  rw [read, joinLineEnds_of_not_mem (not_mem_numberedText hkey h hmore), numberedText,
    String.toList_ofList]
  rw [hcons, List.cons_append] at hpair ⊢
  have hskip (cs : List Char) : skipGaps (c :: cs) = c :: cs := by simp [skipGaps, hgap]
  have hbegins : beginsKey c = true := by simp [beginsKey, hc]
  rw [readStatements, hskip]
  simp only [readStatement, hnewline, hcomment, hbegins, or_self, if_false, if_true, hpair, bind,
    Except.bind]

end lines

def manyOnes : List Char := List.replicate (maxIntegerDigits + 1) '1'

theorem isHuge_manyOnes : IsHuge manyOnes where
  digits c hc := List.eq_of_mem_replicate hc ▸ rfl
  nonzero := by simp [manyOnes, List.replicate_succ]
  long := by simp [manyOnes]

theorem read_manyOnes {more : List Char} (h : '\r' ∉ more) :
    read (numberedText "n" manyOnes more) = .error .hugeInteger :=
  read_of_huge ⟨by decide, List.all_eq_true.mp rfl⟩ isHuge_manyOnes h

end Reclaim.Toml
