import Mathlib.Algebra.Group.Nat.Defs
import Mathlib.Tactic.SplitIfs
import Reclaim.Toml.Reader
import Reclaim.Toml.Writer

/-!
What is written is read back. A character is read from its escape whatever follows, so a text is
read from its written form up to the closing mark; lines of keys with texts are read one by one.
-/

namespace Reclaim.Toml

section hexadecimal

theorem hexValue?_digitChar : ∀ d < 16, hexValue? (Nat.digitChar d) = some d := by
  decide

theorem numberOf_snoc (base : Nat) (digits : List Nat) (d : Nat) :
    numberOf base (digits ++ [d]) = numberOf base digits * base + d := by
  simp [numberOf, List.foldl_append]

theorem mapM_hexDigits (width n : Nat) :
    ∃ values, (Text.hexDigits width n).mapM hexValue? = some values ∧
      numberOf 16 values = n % 16 ^ width := by
  induction width generalizing n with
  | zero => exact ⟨[], rfl, by simp [numberOf, Nat.mod_one]⟩
  | succ width ih =>
      obtain ⟨values, hvalues, hnumber⟩ := ih (n / 16)
      have hlast := hexValue?_digitChar (n % 16) (Nat.mod_lt _ (by decide))
      refine ⟨values ++ [n % 16], ?_, ?_⟩
      · simp [Text.hexDigits, hvalues, hlast]
      · rw [numberOf_snoc, hnumber, Nat.pow_succ, Nat.mul_comm (16 ^ width), Nat.mod_mul]
        omega

/-- A character is found again in the digits of its number, if there are enough. -/
theorem charOfHex?_hexDigits {width : Nat} {c : Char} (h : c.toNat < 16 ^ width) :
    charOfHex? (Text.hexDigits width c.toNat) = some c := by
  obtain ⟨values, hvalues, hnumber⟩ := mapM_hexDigits width c.toNat
  rw [Nat.mod_eq_of_lt h] at hnumber
  simp only [charOfHex?, hvalues, hnumber]
  have hvalid : c.toNat.isValidChar := c.valid
  rw [if_pos hvalid, Char.ofNat_toNat]

end hexadecimal

section basic

variable {c : Char}

theorem readBasic_plain (hquote : c ≠ '"') (hslash : c ≠ '\\') (hcontrol : isControl c = false)
    (more : List Char) :
    readBasic false .nothing (c :: more) = prepend c (readBasic false .nothing more) := by
  rw [readBasic.eq_def]
  simp [hquote, hslash, hcontrol]

theorem readBasic_short {e : Char} (h : escaped? e = some c) (more : List Char) :
    readBasic false .nothing ('\\' :: e :: more) = prepend c (readBasic false .nothing more) := by
  have hu : e ≠ 'u' := by
    rintro rfl
    cases h
  have hU : e ≠ 'U' := by
    rintro rfl
    cases h
  rw [readBasic.eq_def]
  simp [h, hu, hU]

theorem readBasic_unicode (h : c.toNat < 16 ^ 4) (more : List Char) :
    readBasic false .nothing ('\\' :: 'u' :: (Text.hexDigits 4 c.toNat ++ more)) =
      prepend c (readBasic false .nothing more) := by
  have hread := charOfHex?_hexDigits h
  obtain ⟨a, b, d, e, hdigits⟩ : ∃ a b d e, Text.hexDigits 4 c.toNat = [a, b, d, e] :=
    ⟨_, _, _, _, rfl⟩
  rw [hdigits] at hread ⊢
  rw [readBasic.eq_def]
  simp [hread]

/-- A character is written with a letter of its own, with its number, or as it is. -/
theorem escapeChar_cases (c : Char) :
    (∃ e, escaped? e = some c ∧ escapeChar c = ['\\', e]) ∨
      (c.toNat < 16 ^ 4 ∧ escapeChar c = '\\' :: 'u' :: Text.hexDigits 4 c.toNat) ∨
      (c ≠ '"' ∧ c ≠ '\\' ∧ isControl c = false ∧ escapeChar c = [c]) := by
  unfold escapeChar
  split_ifs with hquote hslash hback hline hfeed hreturn hcontrol
  · exact .inl ⟨'"', congrArg some hquote.symm, rfl⟩
  · exact .inl ⟨'\\', congrArg some hslash.symm, rfl⟩
  · exact .inl ⟨'b', congrArg some hback.symm, rfl⟩
  · exact .inl ⟨'n', congrArg some hline.symm, rfl⟩
  · exact .inl ⟨'f', congrArg some hfeed.symm, rfl⟩
  · exact .inl ⟨'r', congrArg some hreturn.symm, rfl⟩
  · exact .inr (.inl ⟨by omega, rfl⟩)
  · have hplain : ¬isControl c = true := by simpa [isControl] using hcontrol
    exact .inr (.inr ⟨hquote, hslash, by simpa using hplain, rfl⟩)

theorem readBasic_escapeChar (c : Char) (more : List Char) :
    readBasic false .nothing (escapeChar c ++ more) =
      prepend c (readBasic false .nothing more) := by
  rcases escapeChar_cases c with ⟨e, he, h⟩ | ⟨hnumber, h⟩ | ⟨hquote, hslash, hcontrol, h⟩
  · rw [h]
    exact readBasic_short he more
  · rw [h]
    exact readBasic_unicode hnumber more
  · rw [h]
    exact readBasic_plain hquote hslash hcontrol more

/-- A text is read from its written form up to the closing mark. -/
theorem readBasic_written (cs rest : List Char) :
    readBasic false .nothing (cs.flatMap escapeChar ++ '"' :: rest) = .ok (cs, rest) := by
  induction cs with
  | nil => rw [List.flatMap_nil, List.nil_append, readBasic.eq_def]; simp
  | cons c cs ih =>
      rw [List.flatMap_cons, List.append_assoc, readBasic_escapeChar, ih]
      rfl

theorem escapeChar_cons (c : Char) : ∃ e more, escapeChar c = e :: more ∧ e ≠ '"' := by
  rcases escapeChar_cases c with ⟨e, -, h⟩ | ⟨-, h⟩ | ⟨hquote, -, -, h⟩
  · exact ⟨_, _, h, by decide⟩
  · exact ⟨_, _, h, by decide⟩
  · exact ⟨_, _, h, hquote⟩

theorem readString_of_mark {cs : List Char} (h : ∀ more, cs ≠ '"' :: '"' :: more) :
    readString ('"' :: cs) = do
      let (text, rest) ← readBasic false .nothing cs
      return (String.ofList text, rest) := by
  rw [readString.eq_def]
  split
  · rename_i more heq
    exact absurd (List.cons.inj heq).2 (h more)
  · rename_i heq
    rw [(List.cons.inj heq).2]
  all_goals simp_all

theorem readString_writeString (text : String) {rest : List Char} (h : rest.head? ≠ some '"') :
    readString (writeString text ++ rest) = .ok (text, rest) := by
  have hwritten : writeString text ++ rest =
      '"' :: (text.toList.flatMap escapeChar ++ '"' :: rest) := by
    simp [writeString]
  have hmarks : ∀ more, text.toList.flatMap escapeChar ++ '"' :: rest ≠ '"' :: '"' :: more := by
    intro more hmore
    cases htext : text.toList with
    | nil =>
        rw [htext] at hmore
        exact h (by rw [(List.cons.inj hmore).2]; rfl)
    | cons c cs =>
        obtain ⟨e, rest, hescape, hmark⟩ := escapeChar_cons c
        rw [htext, List.flatMap_cons, hescape] at hmore
        exact hmark (List.cons.inj hmore).1
  rw [hwritten, readString_of_mark hmarks, readBasic_written]
  exact congrArg (fun t => Except.ok (t, rest)) String.ofList_toList

end basic

section lines

variable {key : String}

structure IsBareKey (key : String) : Prop where
  nonempty : key.toList ≠ []
  bare : ∀ c ∈ key.toList, isBareKeyChar c = true

theorem bare_ne {c : Char} (h : isBareKeyChar c = true) :
    c ≠ '\n' ∧ c ≠ '#' ∧ c ≠ '"' ∧ c ≠ '\'' ∧ c ≠ '\r' ∧ isGap c = false := by
  simp only [isGap, Bool.or_eq_false_iff, decide_eq_false_iff_not]
  refine ⟨?_, ?_, ?_, ?_, ?_, ?_, ?_⟩ <;>
    rintro rfl <;> exact absurd h (by decide)

theorem IsBareKey.exists_cons (h : IsBareKey key) :
    ∃ c more, key.toList = c :: more ∧ isBareKeyChar c = true := by
  cases hkey : key.toList with
  | nil => exact absurd hkey h.nonempty
  | cons c more => exact ⟨c, more, rfl, h.bare c (by simp [hkey])⟩

theorem readKeyPart_of_bare {c : Char} (h : isBareKeyChar c = true) (cs : List Char) :
    readKeyPart (c :: cs) =
      .ok (String.ofList ((c :: cs).takeWhile isBareKeyChar), (c :: cs).dropWhile isBareKeyChar) := by
  obtain ⟨-, -, hmark, hapostrophe, -, -⟩ := bare_ne h
  rw [readKeyPart.eq_def]
  split
  · rename_i heq
    exact absurd (List.cons.inj heq).1 hapostrophe
  · rename_i heq
    exact absurd (List.cons.inj heq).1 hmark
  · simp [h]

theorem readKey_bare (h : IsBareKey key) (rest : List Char) :
    readKey (key.toList ++ ' ' :: '=' :: rest) = .ok ([key], '=' :: rest) := by
  obtain ⟨c, more, hkey, hc⟩ := h.exists_cons
  have htake : (key.toList ++ ' ' :: '=' :: rest).takeWhile isBareKeyChar = key.toList := by
    rw [List.takeWhile_append_of_pos h.bare]
    simp [isBareKeyChar]
  have hdrop : (key.toList ++ ' ' :: '=' :: rest).dropWhile isBareKeyChar =
      ' ' :: '=' :: rest := by
    rw [List.dropWhile_append_of_pos h.bare]
    rfl
  have hpart : readKeyPart (key.toList ++ ' ' :: '=' :: rest) = .ok (key, ' ' :: '=' :: rest) := by
    have hread := readKeyPart_of_bare hc (more ++ ' ' :: '=' :: rest)
    rw [← List.cons_append, ← hkey, htake, hdrop, String.ofList_toList] at hread
    exact hread
  rw [readKey, readKeyParts, hpart]
  rfl

theorem readValue_writeString (text : String) {rest : List Char} (h : rest.head? ≠ some '"')
    (fuel : Nat) :
    readValue (fuel + 1) (writeString text ++ rest) = .ok (.string text, rest) := by
  have hread := readString_writeString text h
  rw [writeString] at hread ⊢
  simp only [List.cons_append] at hread ⊢
  rw [readValue.eq_def]
  simp only [hread]
  rfl

theorem readPair_writeLine (h : IsBareKey key) (text : String) {p p' : Progress}
    (hadd : p.addValue [key] (.string text) = .ok p') (rest : List Char) :
    readPair p (writeLine key text ++ rest) = .ok (p', '\n' :: rest) := by
  have hline : writeLine key text ++ rest =
      key.toList ++ ' ' :: '=' :: ' ' :: (writeString text ++ '\n' :: rest) := by
    simp [writeLine]
  have hgap : skipGaps (' ' :: (writeString text ++ '\n' :: rest)) =
      writeString text ++ '\n' :: rest := rfl
  have hmark : ('\n' :: rest).head? ≠ some '"' := by simp
  rw [hline, readPair, readKey_bare h]
  simp only [bind, Except.bind, hgap, readValue_writeString text hmark, hadd]
  rfl

/-- A line that gives a bare key a text is read, and reading goes on behind it. -/
theorem readStatements_writeLine (h : IsBareKey key) (text : String) {p p' : Progress}
    (hadd : p.addValue [key] (.string text) = .ok p') (fuel : Nat) (rest : List Char) :
    readStatements (fuel + 1) p (writeLine key text ++ rest) = readStatements fuel p' rest := by
  obtain ⟨c, more, hkey, hc⟩ := h.exists_cons
  obtain ⟨hnewline, hcomment, -, -, -, hgap⟩ := bare_ne hc
  have hpair := readPair_writeLine h text hadd rest
  obtain ⟨tail, htail⟩ : ∃ tail, writeLine key text ++ rest = c :: tail := by
    rw [writeLine, hkey]
    exact ⟨_, rfl⟩
  rw [htail] at hpair ⊢
  have hskip : skipGaps (c :: tail) = c :: tail := by simp [skipGaps, hgap]
  have hstatement : readStatement p (c :: tail) = .ok (p', '\n' :: rest) := by
    have hbegins : beginsKey c = true := by simp [beginsKey, hc]
    simp only [readStatement, hnewline, hcomment, hbegins, or_self, if_false, if_true, hpair]
  rw [readStatements, hskip, hstatement]
  rfl

theorem joinLineEnds_of_not_mem {cs : List Char} (h : '\r' ∉ cs) : joinLineEnds cs = cs := by
  induction cs with
  | nil => rfl
  | cons c cs ih =>
      rw [List.mem_cons, not_or] at h
      rw [joinLineEnds.eq_def]
      split
      · rename_i heq
        exact absurd (List.cons.inj heq).1.symm h.1
      · rename_i heq
        obtain ⟨rfl, rfl⟩ := List.cons.inj heq
        rw [ih h.2]
      · rename_i heq
        cases heq

theorem not_mem_hexDigits (width n : Nat) : '\r' ∉ Text.hexDigits width n := by
  induction width generalizing n with
  | zero => simp [Text.hexDigits]
  | succ width ih =>
      have hdigits : ∀ d < 16, '\r' ≠ Nat.digitChar d := by decide
      have hlast := hdigits (n % 16) (Nat.mod_lt _ (by decide))
      simp [Text.hexDigits, ih, hlast]

theorem not_mem_escapeChar (c : Char) : '\r' ∉ escapeChar c := by
  rcases escapeChar_cases c with ⟨e, he, h⟩ | ⟨-, h⟩ | ⟨-, -, hcontrol, h⟩
  · have hne : '\r' ≠ e := by
      rintro rfl
      cases he
    simp [h, hne]
  · simp [h, not_mem_hexDigits]
  · have hne : '\r' ≠ c := by
      rintro rfl
      exact absurd hcontrol (by decide)
    simp [h, hne]

theorem not_mem_writeLine (h : IsBareKey key) (text : String) :
    '\r' ∉ writeLine key text := by
  have hkey : '\r' ∉ key.toList := by
    intro hmem
    exact (bare_ne (h.bare _ hmem)).2.2.2.2.1 rfl
  simp [writeLine, writeString, hkey, not_mem_escapeChar]

end lines

end Reclaim.Toml
