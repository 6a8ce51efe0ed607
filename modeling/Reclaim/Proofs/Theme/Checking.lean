import Reclaim.Proofs.Colour.Numeral
import Reclaim.Proofs.Validation
import Reclaim.Theme.Basic

/-!
The check of a table of colours. A table passes if each of its keys is the name of a role and each
value a text that is a colour code when it is stripped; the theme then has the stripped texts, and
the defaults for the roles that are left out. A table that does not pass is refused as a whole, with
one issue for each key that is at fault.
-/

namespace Reclaim

namespace Role

theorem name_inj {a b : Role} : a.name = b.name ↔ a = b := by
  constructor
  · intro h
    have hall : ∀ a ∈ all, ∀ b ∈ all, a.name = b.name → a = b := by decide
    exact hall a (mem_all a) b (mem_all b) h
  · rintro rfl
    rfl

theorem names_nodup : (all.map name).Nodup := by decide

theorem name_mem (role : Role) : role.name ∈ all.map name :=
  List.mem_map_of_mem (mem_all role)

end Role

namespace Theme

/-- A key names a role, and its value is a text with a number after its number sign. -/
def Fits (key : String) (value : Option String) : Prop :=
  ∃ role text, Role.name role = key ∧ value = some text ∧ Colour.IsNumeral (Text.strip text)

/-- The theme of some texts: for each role the stripped text that is given, else the default. -/
def Merges (given : String → String → Prop) (theme : Theme) : Prop :=
  ∀ role, (∀ text, given (Role.name role) text → theme.colour role = Text.strip text) ∧
    ((∀ text, ¬given (Role.name role) text) → theme.colour role = role.defaultColour)

/-- The texts that a table gives under its keys. -/
def Says (fields : Fields) (key text : String) : Prop :=
  (key, some text) ∈ fields

def table (theme : Theme) : Fields :=
  Role.all.map fun role => (role.name, some (theme.colour role))

variable {fields : Fields} {theme : Theme}

theorem fits_name {role : Role} {value : Option String} :
    Fits role.name value ↔ ∃ text, value = some text ∧ Colour.IsNumeral (Text.strip text) := by
  constructor
  · rintro ⟨role', text, -, rfl, numeral⟩
    exact ⟨text, rfl, numeral⟩
  · rintro ⟨text, rfl, numeral⟩
    exact ⟨role, text, rfl, rfl, numeral⟩

theorem known_of_fits (key : String) (value : Option String) (h : Fits key value) :
    key ∈ Role.all.map Role.name := by
  obtain ⟨role, text, rfl, -, -⟩ := h
  exact role.name_mem

theorem checkColour_of_fits {role : Role} {value : Option String} (h : Fits role.name value) :
    ∃ text, value = some text ∧ checkColour role value = .ok (Text.strip text) := by
  obtain ⟨text, rfl, numeral⟩ := fits_name.mp h
  refine ⟨text, rfl, ?_⟩
  simp only [checkColour, Colour.ofText_eq_ok_iff.mpr ⟨rfl, numeral⟩]

theorem checkColour_of_not_fits {role : Role} {value : Option String} (h : ¬Fits role.name value) :
    ∃ complaint, checkColour role value = .error ⟨some role.name, complaint⟩ := by
  cases value with
  | none => exact ⟨_, rfl⟩
  | some text =>
      cases htext : Colour.ofText text with
      | ok code =>
          obtain ⟨rfl, numeral⟩ := Colour.ofText_eq_ok_iff.mp htext
          exact absurd (fits_name.mpr ⟨text, rfl, numeral⟩) h
      | error defect => exact ⟨_, by simp only [checkColour, htext]; rfl⟩

theorem readColour_of_get? {role : Role} {value : Option String}
    (h : fields.get? role.name = some value) :
    readColour fields role = checkColour role value := by
  simp only [readColour, h]

theorem readColour_of_absent {role : Role} (h : fields.get? role.name = none) :
    readColour fields role = .ok role.defaultColour := by
  simp only [readColour, h]

theorem blames_readColour (distinct : fields.Distinct) (roles : List Role) :
    Blames (fields.Offends Fits) (roles.map Role.name)
      (roles.flatMap fun role => issueOf (readColour fields role)) := by
  induction roles with
  | nil => exact .done
  | cons role roles ih =>
      rw [List.map_cons, List.flatMap_cons]
      refine Blames.read distinct ?_ ?_ ?_ ih
      · exact fun habsent => ⟨_, readColour_of_absent habsent⟩
      · intro value hget hfit
        obtain ⟨text, -, hcheck⟩ := checkColour_of_fits hfit
        exact ⟨_, (readColour_of_get? hget).trans hcheck⟩
      · intro value hget hno
        obtain ⟨complaint, hcheck⟩ := checkColour_of_not_fits hno
        exact ⟨complaint, (readColour_of_get? hget).trans hcheck⟩

theorem reports_issues (distinct : fields.Distinct) :
    Reports Fits (Role.all.map Role.name) fields (issues fields) :=
  ⟨_, blames_readColour distinct Role.all, rfl⟩

theorem issues_eq_nil_iff (distinct : fields.Distinct) :
    issues fields = [] ↔ ∀ key value, (key, value) ∈ fields → Fits key value :=
  (reports_issues distinct).eq_nil_iff known_of_fits

/-- A table gives a theme if it has no issues, and its issues if it has some. -/
theorem ofFields_cases (fields : Fields) :
    issues fields = [] ∧ ofFields fields =
        .ok ⟨fun role => (readColour fields role).toOption.getD role.defaultColour⟩ ∨
      issues fields ≠ [] ∧ ofFields fields = .error (issues fields) := by
  unfold ofFields
  cases issues fields with
  | nil => exact .inl ⟨rfl, rfl⟩
  | cons issue rest => exact .inr ⟨nofun, rfl⟩

theorem ofFields_isOk_iff (distinct : fields.Distinct) :
    (∃ theme, ofFields fields = .ok theme) ↔
      ∀ key value, (key, value) ∈ fields → Fits key value := by
  rw [← issues_eq_nil_iff distinct]
  rcases ofFields_cases fields with ⟨hnone, htheme⟩ | ⟨hsome, herror⟩
  · exact iff_of_true ⟨_, htheme⟩ hnone
  · refine iff_of_false ?_ hsome
    rintro ⟨theme, htheme⟩
    simp [herror] at htheme

theorem merges_of_ofFields (distinct : fields.Distinct) (h : ofFields fields = .ok theme) :
    Merges (Says fields) theme := by
  have hfit := (ofFields_isOk_iff distinct).mp ⟨theme, h⟩
  rcases ofFields_cases fields with ⟨-, htheme⟩ | ⟨-, herror⟩
  · obtain rfl := Except.ok.inj (h.symm.trans htheme)
    intro role
    constructor
    · intro text hmem
      obtain ⟨text', heq, hcheck⟩ := checkColour_of_fits (hfit _ _ hmem)
      obtain rfl := Option.some.inj heq
      have hread := readColour_of_get? ((Fields.get?_eq_some_iff distinct).mpr hmem)
      simp [hread, hcheck, Except.toOption]
    · intro hsilent
      have habsent : ∀ value, (role.name, value) ∉ fields := by
        intro value hmem
        obtain ⟨text, rfl, -⟩ := fits_name.mp (hfit _ _ hmem)
        exact hsilent text hmem
      simp [readColour_of_absent (Fields.get?_eq_none_iff.mpr habsent), Except.toOption]
  · simp [h] at herror

theorem Merges.unique {given : String → String → Prop} {theme' : Theme} (h : Merges given theme)
    (h' : Merges given theme') : theme = theme' := by
  have hcolour : theme.colour = theme'.colour := by
    funext role
    by_cases hgiven : ∃ text, given role.name text
    · obtain ⟨text, htext⟩ := hgiven
      exact ((h role).1 text htext).trans ((h' role).1 text htext).symm
    · have hno := not_exists.mp hgiven
      exact ((h role).2 hno).trans ((h' role).2 hno).symm
  cases theme
  cases theme'
  exact congrArg Theme.mk hcolour

theorem isNumeral_defaultColour (role : Role) :
    Text.strip role.defaultColour = role.defaultColour ∧ Colour.IsNumeral role.defaultColour := by
  have hcode : Colour.ofText role.defaultColour = .ok role.defaultColour := by
    cases role <;> rfl
  obtain ⟨hstrip, numeral⟩ := Colour.ofText_eq_ok_iff.mp hcode
  exact ⟨hstrip.symm, numeral⟩

/-- The colours of a theme that has passed the check are codes without blanks around them. -/
theorem colour_of_ofFields (distinct : fields.Distinct) (h : ofFields fields = .ok theme)
    (role : Role) :
    Text.strip (theme.colour role) = theme.colour role ∧ Colour.IsNumeral (theme.colour role) := by
  have hfit := (ofFields_isOk_iff distinct).mp ⟨theme, h⟩
  obtain ⟨hgiven, hsilent⟩ := merges_of_ofFields distinct h role
  by_cases hsays : ∃ text, Says fields role.name text
  · obtain ⟨text, hmem⟩ := hsays
    obtain ⟨_, heq, numeral⟩ := fits_name.mp (hfit _ _ hmem)
    obtain rfl := Option.some.inj heq
    rw [hgiven text hmem]
    exact ⟨Text.strip_strip text, numeral⟩
  · rw [hsilent (not_exists.mp hsays)]
    exact isNumeral_defaultColour role

theorem mem_table {key : String} {value : Option String} :
    (key, value) ∈ theme.table ↔
      ∃ role, Role.name role = key ∧ value = some (theme.colour role) := by
  simp only [table, List.mem_map, Prod.mk.injEq]
  constructor
  · rintro ⟨role, -, hkey, hvalue⟩
    exact ⟨role, hkey, hvalue.symm⟩
  · rintro ⟨role, hkey, hvalue⟩
    exact ⟨role, role.mem_all, hkey, hvalue.symm⟩

theorem table_distinct (theme : Theme) : theme.table.Distinct := Role.names_nodup

theorem ofFields_table (distinct : fields.Distinct) (h : ofFields fields = .ok theme) :
    ofFields theme.table = .ok theme := by
  have hcolour := colour_of_ofFields distinct h
  have hfit : ∀ key value, (key, value) ∈ theme.table → Fits key value := by
    intro key value hmem
    obtain ⟨role, rfl, rfl⟩ := mem_table.mp hmem
    exact fits_name.mpr ⟨_, rfl, by rw [(hcolour role).1]; exact (hcolour role).2⟩
  obtain ⟨theme', htheme'⟩ := (ofFields_isOk_iff theme.table_distinct).mpr hfit
  have hmerges := merges_of_ofFields theme.table_distinct htheme'
  have hself : Merges (Says theme.table) theme := by
    intro role
    constructor
    · intro text hmem
      obtain ⟨role', hname, heq⟩ := mem_table.mp hmem
      obtain rfl := Role.name_inj.mp hname
      rw [Option.some.inj heq, (hcolour _).1]
    · exact fun hsilent => absurd (mem_table.mpr ⟨role, rfl, rfl⟩) (hsilent _)
  rw [htheme', hmerges.unique hself]

/-- The check takes a text for a role. -/
def Takes (role : Role) (text : String) : Prop :=
  ∃ theme, ofFields [(role.name, some text)] = .ok theme

theorem takes_iff {role : Role} {text : String} :
    Takes role text ↔ Colour.IsNumeral (Text.strip text) := by
  have distinct : Fields.Distinct [(role.name, some text)] := List.nodup_singleton role.name
  rw [Takes, ofFields_isOk_iff distinct]
  constructor
  · intro h
    obtain ⟨_, heq, numeral⟩ := fits_name.mp (h _ _ (List.mem_singleton.mpr rfl))
    obtain rfl := Option.some.inj heq
    exact numeral
  · rintro numeral key value hmem
    obtain ⟨rfl, rfl⟩ := Prod.mk.inj (List.mem_singleton.mp hmem)
    exact fits_name.mpr ⟨text, rfl, numeral⟩

/-- A text is taken for a role exactly if it is a number sign with a number when it is stripped;
every code of hexadecimal digits is one, and without loose characters there are no others. A table
passes exactly if all its entries fit, and then gives the theme of its texts, which passes again and
stays the same. A table that does not pass has one issue for each key at fault. -/
theorem colours_checked_as_numbers (role : Role) (text : String) (fields : Fields)
    (distinct : fields.Distinct) :
    (Takes role text ↔ Colour.IsNumeral (Text.strip text)) ∧
      (Colour.IsCode (Text.strip text) → Takes role text) ∧
      ((∀ c ∈ (Text.strip text).toList, ¬Colour.Loose c) →
        (Takes role text ↔ Colour.IsCode (Text.strip text))) ∧
      ((∃ theme, ofFields fields = .ok theme) ↔
        ∀ key value, (key, value) ∈ fields → Fits key value) ∧
      (∀ theme, ofFields fields = .ok theme →
        Merges (Says fields) theme ∧ ofFields theme.table = .ok theme) ∧
      ∀ issues, ofFields fields = .error issues →
        Reports Fits (Role.all.map Role.name) fields issues ∧ (issues.map (·.field)).Nodup ∧
          ∀ field, field ∈ issues.map (·.field) ↔
            ∃ key, fields.Offends Fits key ∧ field = some key := by
  refine ⟨takes_iff, fun code => takes_iff.mpr code.isNumeral, fun strict =>
    takes_iff.trans (Colour.isNumeral_iff_isCode strict), ofFields_isOk_iff distinct, ?_, ?_⟩
  · intro theme htheme
    exact ⟨merges_of_ofFields distinct htheme, ofFields_table distinct htheme⟩
  · intro issues hissues
    have hreports : Reports Fits (Role.all.map Role.name) fields issues := by
      rcases ofFields_cases fields with ⟨-, htheme⟩ | ⟨-, herror⟩
      · simp [hissues] at htheme
      · exact Except.error.inj (herror.symm.trans hissues) ▸ reports_issues distinct
    exact ⟨hreports, hreports.nodup Role.names_nodup distinct,
      fun field => hreports.mem_iff known_of_fits⟩

/-- A table of which one key has no text and another is no role, beside one entry that fits. -/
theorem colours_checked_as_numbers_faults :
    ∃ issues, ofFields [("other", some "#abc"), ("muted", some " #aBc "), ("error", none)] =
        .error issues ∧
      (issues.map (·.field)).Nodup ∧ issues.map (·.field) = [some "error", some "other"] ∧
      Takes .muted " #aBc " := by
  have distinct : Fields.Distinct
      [("other", some "#abc"), ("muted", some " #aBc "), ("error", none)] := by decide
  have h := colours_checked_as_numbers .muted " #aBc " _ distinct
  have hcode : Colour.IsCode (Text.strip " #aBc ") :=
    ⟨['a', 'B', 'c'], rfl, .inl rfl, List.all_eq_true.mp rfl⟩
  obtain ⟨issues, hissues, hkeys⟩ : ∃ issues, ofFields
      [("other", some "#abc"), ("muted", some " #aBc "), ("error", none)] = .error issues ∧
      issues.map (·.field) = [some "error", some "other"] := ⟨_, rfl, rfl⟩
  exact ⟨issues, hissues, (h.2.2.2.2.2 issues hissues).2.1, hkeys, h.2.1 hcode⟩

/-- A number with a sign is taken as a colour and kept, although it is no code of hexadecimal
digits. -/
theorem signed_number_is_taken :
    ¬Colour.IsCode (Text.strip "#+ab") ∧
      ∃ theme, ofFields [(Role.name .text, some "#+ab")] = .ok theme ∧
        theme.colour .text = "#+ab" := by
  refine ⟨?_, _, rfl, rfl⟩
  rintro ⟨digits, hcode, -, hdigits⟩
  have hplus : '+' ∈ digits := by
    obtain rfl : ['+', 'a', 'b'] = digits := (List.cons.inj hcode).2
    decide
  exact absurd (hdigits '+' hplus) (by decide)

end Theme
end Reclaim
