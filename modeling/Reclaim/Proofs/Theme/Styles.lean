import Mathlib.Data.List.Basic
import Reclaim.Proofs.Colour.Numeral
import Reclaim.Theme.Store
import Reclaim.Theme.Style

/-!
Which themes give styles. Two readers look at a colour code, the check of a theme and the reader of
styles, and the second takes less than the first: it needs a number sign with six hexadecimal
digits. A theme that has passed the check gives its ten styles exactly if all its colours are such
codes in full.
-/

namespace Reclaim

namespace Text

theorem sublist_of_mem_wordsFrom {word cs w : List Char} (h : w ∈ wordsFrom word cs) :
    w.Sublist (word ++ cs) := by
  induction word, cs using wordsFrom.induct with
  | case1 => simp [wordsFrom] at h
  | case2 word _ =>
      obtain rfl : w = word := by simpa [wordsFrom] using h
      simp
  | case3 word c cs hc hword ih =>
      rw [wordsFrom, if_pos hc, if_pos hword] at h
      exact (ih h).trans ((List.sublist_append_right word cs).trans (by simp))
  | case4 word c cs hc hword ih =>
      rw [wordsFrom, if_pos hc, if_neg hword] at h
      rcases List.mem_cons.mp h with rfl | h
      · exact List.sublist_append_left w _
      · exact (ih h).trans ((List.sublist_cons_self c cs).trans
          (List.sublist_append_right word _))
  | case5 word c cs hc ih =>
      rw [wordsFrom, if_neg hc] at h
      simpa using ih h

theorem wordsFrom_of_noBlank {word cs : List Char} (h : ∀ c ∈ cs, isBlank c = false)
    (hne : word ++ cs ≠ []) : wordsFrom word cs = [word ++ cs] := by
  induction cs generalizing word with
  | nil =>
      cases word with
      | nil => exact absurd rfl hne
      | cons c word => simp [wordsFrom]
  | cons c cs ih =>
      have hc : ¬isBlank c = true := by simp [h c List.mem_cons_self]
      rw [wordsFrom, if_neg hc, ih (fun d hd => h d (List.mem_cons_of_mem c hd)) (by simp)]
      simp

theorem wordsFrom_ne_nil {word : List Char} (h : word ≠ []) (cs : List Char) :
    wordsFrom word cs ≠ [] := by
  induction cs generalizing word with
  | nil =>
      cases word with
      | nil => exact absurd rfl h
      | cons c word => simp [wordsFrom]
  | cons c cs ih =>
      rw [wordsFrom]
      split
      · simp [h]
      · exact ih (by simp)

theorem words_ne_nil {text : String} {c : Char} {cs : List Char} (h : text.toList = c :: cs)
    (hc : isBlank c = false) : words text ≠ [] := by
  have hfirst : wordsFrom [] (c :: cs) = wordsFrom [c] cs := by simp [wordsFrom, hc]
  rw [words, h, hfirst]
  simpa using wordsFrom_ne_nil (List.cons_ne_nil c []) cs

theorem sublist_of_mem_words {text word : String} (h : word ∈ words text) :
    word.toList.Sublist text.toList := by
  obtain ⟨w, hw, rfl⟩ := List.mem_map.mp h
  rw [String.toList_ofList]
  exact sublist_of_mem_wordsFrom hw

theorem words_of_noBlank {text : String} (h : ∀ c ∈ text.toList, isBlank c = false)
    (hne : text ≠ "") : words text = [text] := by
  rw [words, wordsFrom_of_noBlank h (by simpa using hne)]
  simp

end Text

theorem toNat_toLower (c : Char) :
    c.toLower.toNat = if 65 ≤ c.toNat ∧ c.toNat ≤ 90 then c.toNat + 32 else c.toNat := by
  have hrange : (c.val ≥ 'A'.val ∧ c.val ≤ 'Z'.val) ↔ 65 ≤ c.toNat ∧ c.toNat ≤ 90 := Iff.rfl
  unfold Char.toLower
  by_cases h : 65 ≤ c.toNat ∧ c.toNat ≤ 90
  · rw [dif_pos (hrange.mpr h), if_pos h]
    have hsmall : c.toNat + 32 < 2 ^ 32 := by omega
    show (c.val + 32).toNat = c.toNat + 32
    rw [UInt32.toNat_add]
    exact Nat.mod_eq_of_lt hsmall
  · rw [dif_neg (mt hrange.mp h), if_neg h]

namespace Colour

/-- A colour code in full: a number sign and six hexadecimal digits. -/
def IsFull (code : String) : Prop :=
  ∃ digits, code.toList = '#' :: digits ∧ digits.length = 6 ∧ ∀ c ∈ digits, isHexDigit c = true

theorem isBlank_of_isHexDigit {c : Char} (h : isHexDigit c = true) : Text.isBlank c = false := by
  rw [isHexDigit_iff] at h
  simp [Text.isBlank, Text.blanks]
  omega

theorem IsFull.words {code : String} (h : IsFull code) : Text.words code = [code] := by
  obtain ⟨digits, hcode, -, hdigits⟩ := h
  apply Text.words_of_noBlank
  · intro c hc
    rw [hcode] at hc
    rcases List.mem_cons.mp hc with rfl | hc
    · decide
    · exact isBlank_of_isHexDigit (hdigits c hc)
  · rintro rfl
    cases hcode

/-- A code that has passed the check has at most six characters after its number sign. -/
theorem shape_of_ofText {text code : String} (h : ofText text = .ok code) :
    ∃ digits, code.toList = '#' :: digits ∧ digits.length ≤ 6 := by
  obtain ⟨-, digits, -, hcode, hlength, -⟩ := ofText_eq_ok_iff.mp h
  exact ⟨digits, hcode, by omega⟩

end Colour

namespace Style

theorem isDigit_toLower (c : Char) :
    (c.toLower.isDigit || ('a' ≤ c.toLower && c.toLower ≤ 'f')) = Colour.isHexDigit c := by
  have hlower : (c.toLower.isDigit || ('a' ≤ c.toLower && c.toLower ≤ 'f')) = true ↔
      48 ≤ c.toLower.toNat ∧ c.toLower.toNat ≤ 57 ∨
        97 ≤ c.toLower.toNat ∧ c.toLower.toNat ≤ 102 := by
    simp only [Char.isDigit, Bool.or_eq_true, Bool.and_eq_true, decide_eq_true_eq, Char.le_def]
    exact Iff.rfl
  rw [Bool.eq_iff_iff, hlower, Colour.isHexDigit_iff, toNat_toLower]
  split <;> omega

theorem toLower_eq_numberSign {c : Char} : c.toLower = '#' ↔ c = '#' := by
  rw [← Char.toNat_inj, ← Char.toNat_inj, toNat_toLower]
  show _ = 35 ↔ _ = 35
  split <;> omega

/-- The console takes the full codes as colours, whatever their letter case. -/
theorem isColour_lower {word : String} :
    isColour (lower word).toList = true ↔ Colour.IsFull word := by
  simp only [lower, String.toList_ofList, Colour.IsFull]
  cases hword : word.toList with
  | nil => simp [isColour]
  | cons sign digits =>
      by_cases hsign : sign = '#'
      · subst hsign
        simp [isColour, toLower_eq_numberSign.mpr, Function.comp_def, isDigit_toLower]
      · have hne : sign.toLower ≠ '#' := mt toLower_eq_numberSign.mp hsign
        simp [isColour, hne, hsign]

/-- A code that has passed the check is read as a colour exactly if it is a full one. -/
theorem colourOf_words {code : String} {digits : List Char} (hcode : code.toList = '#' :: digits)
    (hshort : digits.length ≤ 6) (colour : String) :
    colourOf (Text.words code) = .ok colour ↔ Colour.IsFull code ∧ colour = lower code := by
  constructor
  · intro h
    have hfull : Colour.IsFull code := by
      cases hwords : Text.words code with
      | nil => exact absurd hwords (Text.words_ne_nil hcode (by decide))
      | cons word rest =>
          rw [hwords, colourOf] at h
          split at h
          · rename_i hcolour
            -- the first word is as long as the whole code can be
            have hword := isColour_lower.mp hcolour
            obtain ⟨_, htext, hlength, -⟩ := id hword
            have hsub := Text.sublist_of_mem_words (hwords ▸ List.mem_cons_self)
            have hlong : code.toList.length ≤ word.toList.length := by
              rw [hcode, htext, List.length_cons, List.length_cons, hlength]
              omega
            have hsame : word.toList = code.toList := hsub.eq_of_length_le hlong
            exact String.toList_injective hsame ▸ hword
          · cases h
    rw [hfull.words, colourOf, if_pos (isColour_lower.mpr hfull)] at h
    exact ⟨hfull, (Except.ok.inj h).symm⟩
  · rintro ⟨hfull, rfl⟩
    rw [hfull.words, colourOf, if_pos (isColour_lower.mpr hfull)]
    rfl

end Style

namespace Theme

variable {fields : Fields} {theme : Theme} {styles : List Style}

theorem ofText_defaultColour (role : Role) :
    Colour.ofText role.defaultColour = .ok role.defaultColour := by
  cases role <;> rfl

theorem ofText_of_checkColour {role : Role} {value : Option String} {code : String}
    (h : checkColour role value = .ok code) : ∃ text, Colour.ofText text = .ok code := by
  unfold checkColour at h
  cases value with
  | none => cases h
  | some text =>
      simp only at h
      split at h
      · rename_i hcode
        cases h
        exact ⟨text, hcode⟩
      · cases h

/-- Each colour of a theme that has passed the check is a code that has done so. -/
theorem ofText_of_ofFields (h : ofFields fields = .ok theme) (role : Role) :
    ∃ text, Colour.ofText text = .ok (theme.colour role) := by
  unfold ofFields at h
  split at h
  · rename_i hissues
    cases h
    have hnone : issueOf (readColour fields role) = [] := by
      have hall := (List.append_eq_nil_iff.mp hissues).1
      exact List.flatMap_eq_nil_iff.mp hall role (Role.mem_all role)
    obtain ⟨code, hread⟩ := issueOf_eq_nil.mp hnone
    simp only [hread, Except.toOption, Option.getD_some]
    unfold readColour at hread
    split at hread
    · cases hread
      exact ⟨_, ofText_defaultColour role⟩
    · exact ofText_of_checkColour hread
  · cases h

theorem ofFields_nil : ofFields [] = .ok default := rfl

/-- A theme that has been read from a file has passed the check, or is the default. -/
theorem exists_fields_of_load {path : Path} {host : Host} {warnings : List ThemeWarning}
    (h : load path host = .ok (theme, warnings)) : ∃ fields, ofFields fields = .ok theme := by
  unfold load at h
  split at h
  · cases h
  · rename_i colours _ _
    have htheme : (ofColours colours).1 = theme := by
      cases h
      rfl
    unfold ofColours at htheme
    split at htheme
    · exact ⟨[], htheme ▸ ofFields_nil⟩
    · exact ⟨[], htheme ▸ ofFields_nil⟩
    · split at htheme
      · rename_i hfields
        cases htheme
        exact ⟨_, hfields⟩
      · exact ⟨[], htheme ▸ ofFields_nil⟩

def styleOf (theme : Theme) (d : Style.Definition) : Style :=
  ⟨d.name, d.bold, Style.lower (theme.colour d.role)⟩

theorem ofDefinition_eq_ok_iff (h : ofFields fields = .ok theme) (d : Style.Definition)
    (style : Style) :
    Style.ofDefinition theme d = .ok style ↔
      Colour.IsFull (theme.colour d.role) ∧ style = theme.styleOf d := by
  obtain ⟨text, hcode⟩ := ofText_of_ofFields h d.role
  obtain ⟨digits, hshape, hshort⟩ := Colour.shape_of_ofText hcode
  unfold Style.ofDefinition
  cases hread : Style.colourOf (Text.words (theme.colour d.role)) with
  | ok colour =>
      obtain ⟨hfull, rfl⟩ := (Style.colourOf_words hshape hshort colour).mp hread
      simp [hfull, styleOf, eq_comm]
  | error bad =>
      have hnot : ¬Colour.IsFull (theme.colour d.role) := by
        intro hfull
        rw [(Style.colourOf_words hshape hshort _).mpr ⟨hfull, rfl⟩] at hread
        cases hread
      simp [hnot]

theorem mapM_ofDefinition (h : ofFields fields = .ok theme) (ds : List Style.Definition) :
    ds.mapM (Style.ofDefinition theme) = .ok styles ↔
      (∀ d ∈ ds, Colour.IsFull (theme.colour d.role)) ∧ styles = ds.map theme.styleOf := by
  induction ds generalizing styles with
  | nil => simp [pure, Except.pure, eq_comm]
  | cons d ds ih =>
      rw [List.mapM_cons]
      cases hd : Style.ofDefinition theme d with
      | error bad =>
          have hnot : ¬Colour.IsFull (theme.colour d.role) := by
            intro hfull
            rw [(ofDefinition_eq_ok_iff h d _).mpr ⟨hfull, rfl⟩] at hd
            cases hd
          simp [bind, Except.bind, hnot]
      | ok style =>
          obtain ⟨hfull, rfl⟩ := (ofDefinition_eq_ok_iff h d style).mp hd
          cases hds : ds.mapM (Style.ofDefinition theme) with
          | error bad =>
              have hnot : ¬∀ d ∈ ds, Colour.IsFull (theme.colour d.role) := by
                intro hall
                rw [ih.mpr ⟨hall, rfl⟩] at hds
                cases hds
              simp only [bind, Except.bind, reduceCtorEq, List.forall_mem_cons, false_iff]
              exact fun hboth => hnot hboth.1.2
          | ok rest =>
              obtain ⟨hall, rfl⟩ := ih.mp hds
              have hboth : ∀ d' ∈ d :: ds, Colour.IsFull (theme.colour d'.role) :=
                List.forall_mem_cons.mpr ⟨hfull, hall⟩
              simp only [bind, Except.bind, pure, Except.pure, Except.ok.injEq, List.map_cons,
                eq_comm]
              exact (and_iff_right hboth).symm

theorem styles_eq_ok_iff (h : ofFields fields = .ok theme) :
    theme.styles = .ok styles ↔
      (∀ role, Colour.IsFull (theme.colour role)) ∧
        styles = Style.definitions.map theme.styleOf := by
  have hroles : (∀ d ∈ Style.definitions, Colour.IsFull (theme.colour d.role)) ↔
      ∀ role, Colour.IsFull (theme.colour role) := by
    constructor
    · intro hall role
      have hmem : ∃ d ∈ Style.definitions, d.role = role := by cases role <;> decide
      obtain ⟨d, hd, rfl⟩ := hmem
      exact hall d hd
    · exact fun hall d _ => hall d.role
  rw [← hroles]
  exact mapM_ofDefinition h Style.definitions

def styleNames : Role → List String
  | .muted => ["muted", "dim"]
  | .header => ["header", "bold_header"]
  | role => [role.name]

/-- The styles of the console: ten names, of which two are bold, each in the colour of its role. -/
structure Dresses (theme : Theme) (styles : List Style) : Prop where
  names : styles.map (·.name) = ["text", "muted", "header", "border", "success", "warning",
    "error", "info", "bold_header", "dim"]
  bold : ∀ style ∈ styles, style.bold = true ↔ style.name = "error" ∨ style.name = "bold_header"
  -- letter case carries no meaning in a colour, and the console keeps none
  colour : ∀ style ∈ styles, ∀ role, style.name ∈ styleNames role →
    style.colour = Style.lower (theme.colour role)

theorem dresses_styleOf (theme : Theme) : theme.Dresses (Style.definitions.map theme.styleOf) where
  names := rfl
  bold := by
    simp only [List.forall_mem_map]
    show ∀ d ∈ Style.definitions, d.bold = true ↔ d.name = "error" ∨ d.name = "bold_header"
    decide
  colour := by
    simp only [List.forall_mem_map]
    intro d hd role hname
    have hrole : ∀ d ∈ Style.definitions, ∀ role ∈ Role.all,
        d.name ∈ styleNames role → d.role = role := by decide
    rw [styleOf, hrole d hd role (Role.mem_all role) hname]

/-- A theme that has passed the check, from whatever table or file, gives the styles of the console
exactly if its colours are full codes. -/
theorem styles_of_full_colours
    (h : (∃ fields, ofFields fields = .ok theme) ∨
      ∃ path host warnings, load path host = .ok (theme, warnings)) :
    ((∃ styles, theme.styles = .ok styles) ↔ ∀ role, Colour.IsFull (theme.colour role)) ∧
      ∀ styles, theme.styles = .ok styles → theme.Dresses styles := by
  obtain ⟨fields, hfields⟩ : ∃ fields, ofFields fields = .ok theme := by
    rcases h with hfields | ⟨path, host, warnings, hload⟩
    · exact hfields
    · exact exists_fields_of_load hload
  constructor
  · constructor
    · rintro ⟨styles, hstyles⟩
      exact ((styles_eq_ok_iff hfields).mp hstyles).1
    · intro hall
      exact ⟨_, (styles_eq_ok_iff hfields).mpr ⟨hall, rfl⟩⟩
  · intro styles hstyles
    obtain ⟨-, rfl⟩ := (styles_eq_ok_iff hfields).mp hstyles
    exact theme.dresses_styleOf

/-- A theme whose code for errors has capitals, and blanks around it in the table. -/
theorem styles_of_full_colours_capitals :
    ∃ theme styles, ofFields [("error", some " #AB00CD\n")] = .ok theme ∧
      theme.styles = .ok styles ∧ theme.Dresses styles ∧
      (∀ role, Colour.IsFull (theme.colour role)) ∧
      (⟨"error", true, "#ab00cd"⟩ : Style) ∈ styles := by
  obtain ⟨theme, hfields, hstyles⟩ : ∃ theme, ofFields [("error", some " #AB00CD\n")] = .ok theme ∧
      ∃ styles, theme.styles = .ok styles ∧ (⟨"error", true, "#ab00cd"⟩ : Style) ∈ styles :=
    ⟨_, rfl, _, rfl, by decide⟩
  obtain ⟨styles, hstyles, hmem⟩ := hstyles
  have h := styles_of_full_colours (.inl ⟨_, hfields⟩)
  exact ⟨theme, styles, hfields, hstyles, h.2 styles hstyles, h.1.mp ⟨styles, hstyles⟩, hmem⟩

/-- A short code passes the check and gives no styles. -/
theorem short_colour_without_styles :
    ∃ theme, ofFields [("muted", some "#abc")] = .ok theme ∧ theme.colour .muted = "#abc" ∧
      theme.styles = .error ⟨"#abc"⟩ :=
  ⟨_, rfl, rfl, rfl⟩

end Theme
end Reclaim
