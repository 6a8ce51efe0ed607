import Reclaim.Proofs.Theme.Checking
import Reclaim.Proofs.Theme.Loading
import Reclaim.Proofs.Toml.Huge

/-!
What a document of colours says. Only the texts in its table of colours count, and they count all
together: if each of them is a colour of a role they replace the defaults of their roles, and if one
is not there are only defaults. Where the texts stand in the document and what stands beside them
makes no difference.
-/

namespace Reclaim.Theme

open Files

/-- A text stands under a key in the table of colours of a document. -/
def Chosen (table : Toml.Table) (key text : String) : Prop :=
  ∃ entries, ("colors", Toml.Value.table entries) ∈ table ∧ (key, .string text) ∈ entries

/-- There are texts in the table of colours, and each is a colour of a role. -/
def Agreeable (table : Toml.Table) : Prop :=
  (∃ key text, Chosen table key text) ∧
    ∀ key text, Chosen table key text → ∃ role, Role.name role = key ∧ Takes role text

def chosen (table : Toml.Table) : Fields :=
  (coloursOf table).getD []

section Texts

variable {table : Toml.Table} {key text : String} {value : Option String} {theme : Theme}

theorem chosen_cases (distinct : table.Distinct) :
    (∃ entries : Toml.Table, entries.Distinct ∧ ("colors", .table entries) ∈ table ∧
        chosen table = (Fields.ofTable entries).filter (·.2.isSome)) ∨
      (∀ entries, ("colors", Toml.Value.table entries) ∉ table) ∧ chosen table = [] := by
  have hmem (value : Toml.Value) : table.get? "colors" = some value ↔ ("colors", value) ∈ table :=
    find?_key_eq_some_iff distinct.once
  cases hget : table.get? "colors" with
  | none =>
      refine .inr ⟨fun entries hentries => ?_, by simp [chosen, coloursOf, hget]⟩
      simp [(hmem _).mpr hentries] at hget
  | some value =>
      cases value with
      | table entries =>
          refine .inl ⟨entries, Toml.Value.distinct_table.mp (distinct.get? hget),
            (hmem _).mp hget, ?_⟩
          simp [chosen, coloursOf, hget, Toml.Value.table?]
      | _ =>
          refine .inr ⟨fun entries hentries => ?_, ?_⟩
          · simp [(hmem _).mpr hentries] at hget
          · simp [chosen, coloursOf, hget, Toml.Value.table?]

theorem distinct_chosen (distinct : table.Distinct) : (chosen table).Distinct := by
  rcases chosen_cases distinct with ⟨entries, hentries, -, hchosen⟩ | ⟨-, hchosen⟩
  · rw [hchosen]
    exact (distinct_ofTable hentries).sublist (List.filter_sublist.map _)
  · rw [hchosen]
    exact List.nodup_nil

theorem mem_chosen (distinct : table.Distinct) :
    (key, value) ∈ chosen table ↔ ∃ text, value = some text ∧ Chosen table key text := by
  rcases chosen_cases distinct with ⟨entries, -, hcolours, hchosen⟩ | ⟨hno, hchosen⟩
  · have hone : ∀ text, Chosen table key text ↔ (key, .string text) ∈ entries := by
      intro text
      constructor
      · rintro ⟨entries', hcolours', htext⟩
        have hsame := (find?_key_eq_some_iff distinct.once).mpr hcolours
        have hsame' := (find?_key_eq_some_iff distinct.once).mpr hcolours'
        obtain rfl := Toml.Value.table.inj (Option.some.inj (hsame.symm.trans hsame'))
        exact htext
      · exact fun htext => ⟨entries, hcolours, htext⟩
    rw [hchosen, List.mem_filter, mem_ofTable]
    constructor
    · rintro ⟨⟨v, hv, rfl⟩, hsome⟩
      obtain ⟨text, htext⟩ := Option.isSome_iff_exists.mp hsome
      exact ⟨text, htext, (hone text).mpr (Toml.Value.text?_eq_some_iff.mp htext ▸ hv)⟩
    · rintro ⟨text, rfl, htext⟩
      exact ⟨⟨_, (hone text).mp htext, rfl⟩, rfl⟩
  · rw [hchosen]
    constructor
    · nofun
    · rintro ⟨text, -, entries, hcolours, -⟩
      exact absurd hcolours (hno entries)

theorem says_chosen (distinct : table.Distinct) : Says (chosen table) key text ↔
    Chosen table key text := by
  rw [Says, mem_chosen distinct]
  simp

theorem fits_iff_takes {key text : String} :
    Fits key (some text) ↔ ∃ role, Role.name role = key ∧ Takes role text := by
  simp only [Fits, takes_iff, Option.some.injEq]
  constructor
  · rintro ⟨role, _, hname, rfl, numeral⟩
    exact ⟨role, hname, numeral⟩
  · rintro ⟨role, hname, numeral⟩
    exact ⟨role, text, hname, rfl, numeral⟩

theorem ofFields_chosen (distinct : table.Distinct) :
    (∃ theme, ofFields (chosen table) = .ok theme) ↔
      ∀ key text, Chosen table key text → ∃ role, Role.name role = key ∧ Takes role text := by
  rw [ofFields_isOk_iff (distinct_chosen distinct)]
  constructor
  · intro h key text htext
    exact fits_iff_takes.mp (h key _ ((mem_chosen distinct).mpr ⟨text, rfl, htext⟩))
  · intro h key value hmem
    obtain ⟨text, rfl, htext⟩ := (mem_chosen distinct).mp hmem
    exact fits_iff_takes.mpr (h key text htext)

theorem merges_default {given : String → String → Prop} (h : ∀ key text, ¬given key text) :
    Merges given default :=
  fun _ => ⟨fun text htext => absurd htext (h _ text), fun _ => rfl⟩

theorem theme_of_chosen (table : Toml.Table) :
    ofFields (chosen table) = .ok (ofColours (coloursOf table)).1 ∨
      (∀ theme, ofFields (chosen table) ≠ .ok theme) ∧
        (ofColours (coloursOf table)).1 = default := by
  unfold chosen
  cases coloursOf table with
  | none => exact .inl ofFields_nil
  | some colours => exact ofColours_some colours

/-- The chosen texts replace the defaults all together or not at all. -/
theorem merges_or_default (distinct : table.Distinct) :
    Agreeable table ∧ Merges (Chosen table) (ofColours (coloursOf table)).1 ∨
      ¬Agreeable table ∧ (ofColours (coloursOf table)).1 = default := by
  rcases theme_of_chosen table with hpasses | ⟨hfails, hdefault⟩
  · have hmerges : Merges (Chosen table) (ofColours (coloursOf table)).1 := by
      have hsays : Says (chosen table) = Chosen table := by
        funext key text
        exact propext (says_chosen distinct)
      exact hsays ▸ merges_of_ofFields (distinct_chosen distinct) hpasses
    have hall := (ofFields_chosen distinct).mp ⟨_, hpasses⟩
    by_cases hsome : ∃ key text, Chosen table key text
    · exact .inl ⟨⟨hsome, hall⟩, hmerges⟩
    · -- nothing is chosen, and the theme of nothing is the default
      have hnone : ∀ key text, ¬Chosen table key text :=
        fun key text htext => hsome ⟨key, text, htext⟩
      exact .inr ⟨fun h => hsome h.1, hmerges.unique (merges_default hnone)⟩
  · refine .inr ⟨fun h => ?_, hdefault⟩
    obtain ⟨theme, hok⟩ := (ofFields_chosen distinct).mpr h.2
    exact hfails theme hok

/-- Documents that choose the same texts give the same theme. -/
theorem theme_of_same {table' : Toml.Table} (distinct : table.Distinct)
    (distinct' : table'.Distinct)
    (same : ∀ key text, Chosen table key text ↔ Chosen table' key text) :
    (ofColours (coloursOf table)).1 = (ofColours (coloursOf table')).1 := by
  have hsame : Chosen table = Chosen table' := by
    funext key text
    exact propext (same key text)
  have hagree : Agreeable table ↔ Agreeable table' := by rw [Agreeable, Agreeable, hsame]
  rcases merges_or_default distinct with ⟨hagreeable, hmerges⟩ | ⟨hno, hdefault⟩
  · rcases merges_or_default distinct' with ⟨-, hmerges'⟩ | ⟨hno', -⟩
    · exact hmerges.unique (hsame ▸ hmerges')
    · exact absurd (hagree.mp hagreeable) hno'
  · rcases merges_or_default distinct' with ⟨hagreeable', -⟩ | ⟨-, hdefault'⟩
    · exact absurd (hagree.mpr hagreeable') hno
    · exact hdefault.trans hdefault'.symm

end Texts

variable {path : Path} {host : Host} {text : String} {table : Toml.Table}

theorem load_of_reads (h : host.Reads path.text text) (htable : Toml.read text = .ok table) :
    ∃ warnings, load path host = .ok ((ofColours (coloursOf table)).1, warnings) := by
  obtain ⟨content, hread, htext⟩ := h
  exact load_of_table hread htext htable

theorem load_of_hugeInteger (h : host.Reads path.text text)
    (hhuge : Toml.read text = .error .hugeInteger) : load path host = .error .hugeInteger := by
  obtain ⟨content, hread, htext⟩ := h
  simp only [load, loadColours, hread, htext, hhuge]

/-- A document that has been read gives the theme of the texts in its table of colours if there are
some and all are colours of roles, and the default if not; any other document with the same texts
gives the same theme. An integer that is too long, wherever it stands, leaves loading without a
theme. -/
theorem chosen_colours_replace_defaults (path : Path) (h : host.Reads path.text text) :
    (Toml.read text = .error .hugeInteger → load path host = .error .hugeInteger) ∧
      ∀ table, Toml.read text = .ok table →
        ∃ theme warnings, load path host = .ok (theme, warnings) ∧
          (Agreeable table → Merges (Chosen table) theme) ∧
          (¬Agreeable table → theme = default) ∧
          ∀ path' host' text' table', Host.Reads host' (Path.text path') text' →
            Toml.read text' = .ok table' →
            (∀ key text, Chosen table key text ↔ Chosen table' key text) →
            ∃ warnings', load path' host' = .ok (theme, warnings') := by
  refine ⟨load_of_hugeInteger h, fun table htable => ?_⟩
  have distinct := Toml.distinct_of_read htable
  obtain ⟨warnings, hload⟩ := load_of_reads h htable
  refine ⟨_, warnings, hload, ?_, ?_, ?_⟩
  · intro hagreeable
    rcases merges_or_default distinct with ⟨-, hmerges⟩ | ⟨hno, -⟩
    · exact hmerges
    · exact absurd hagreeable hno
  · intro hno
    rcases merges_or_default distinct with ⟨hagreeable, -⟩ | ⟨-, hdefault⟩
    · exact absurd hagreeable hno
    · exact hdefault
  · intro path' host' text' table' h' htable' same
    obtain ⟨warnings', hload'⟩ := load_of_reads h' htable'
    rw [theme_of_same distinct (Toml.distinct_of_read htable') same]
    exact ⟨warnings', hload'⟩

theorem chosen_iff {colours : Fields} (hread : Toml.read text = .ok table)
    (hcolours : coloursOf table = some colours) {key value : String} :
    Chosen table key value ↔ (key, some value) ∈ colours := by
  rw [← says_chosen (Toml.distinct_of_read hread), Says, chosen, hcolours]
  rfl

/-- A colour beside a value that is no text, and the same colour in another document. -/
theorem chosen_colours_replace_defaults_muted :
    ∃ theme warnings, load (.ofText "f") (.holding "[colors]\nmuted = ' #abc '\nx = 1\n") =
        .ok (theme, warnings) ∧
      theme.colour .muted = "#abc" ∧ theme.colour .info = Role.defaultColour .info ∧
      ∃ warnings', load (.ofText "f")
        (.holding "n = 2\ncolors.x = []\ncolors.muted = ' #abc '\n") = .ok (theme, warnings') := by
  have hdocument : (Toml.read "[colors]\nmuted = ' #abc '\nx = 1\n").toOption.map coloursOf =
      some (some [("muted", some " #abc ")]) := by decide +kernel
  have hdocument' : (Toml.read
      "n = 2\ncolors.x = []\ncolors.muted = ' #abc '\n").toOption.map coloursOf =
        some (some [("muted", some " #abc ")]) := by decide +kernel
  obtain ⟨table, hread, hcolours⟩ := exists_table hdocument
  obtain ⟨table', hread', hcolours'⟩ := exists_table hdocument'
  have hmuted : Chosen table "muted" " #abc " :=
    (chosen_iff hread hcolours).mpr (List.mem_singleton.mpr rfl)
  have htakes : Takes .muted " #abc " := ⟨_, rfl⟩
  have hagreeable : Agreeable table := by
    refine ⟨⟨"muted", " #abc ", hmuted⟩, fun key text htext => ?_⟩
    obtain ⟨rfl, rfl⟩ : key = "muted" ∧ text = " #abc " := by
      simpa using (chosen_iff hread hcolours).mp htext
    exact ⟨.muted, rfl, htakes⟩
  obtain ⟨theme, warnings, hload, hmerges, -, hsame⟩ :=
    (chosen_colours_replace_defaults (.ofText "f") (Host.reads_holding _)).2 table hread
  refine ⟨theme, warnings, hload, (hmerges hagreeable .muted).1 " #abc " hmuted, ?_, ?_⟩
  · refine (hmerges hagreeable .info).2 fun text htext => ?_
    have hmem := (chosen_iff hread hcolours).mp htext
    simp [Role.name] at hmem
  · exact hsame (.ofText "f") _ _ _ (Host.reads_holding _) hread' fun key text =>
      (chosen_iff hread hcolours).trans (chosen_iff hread' hcolours').symm

def numberedColours (number : List Char) : String :=
  Toml.numberedText "n" number "[colors]\nmuted = '#abcdef'\n".toList

/-- An integer that is too long leaves no theme, although it is no text in the table of colours;
with a short one in its place the colour there is used. -/
theorem long_integer_without_theme :
    load (.ofText "f") (.holding (numberedColours Toml.manyOnes)) = .error .hugeInteger ∧
      (¬∃ theme warnings, load (.ofText "f") (.holding (numberedColours Toml.manyOnes)) =
        .ok (theme, warnings)) ∧
      ∃ theme warnings, load (.ofText "f") (.holding (numberedColours ['1'])) =
          .ok (theme, warnings) ∧
        theme.colour .muted = "#abcdef" := by
  have hread : Toml.read (numberedColours Toml.manyOnes) = .error .hugeInteger :=
    Toml.read_manyOnes (by decide)
  have hload : load (.ofText "f") (.holding (numberedColours Toml.manyOnes)) =
      .error .hugeInteger := load_of_hugeInteger (Host.reads_holding _) hread
  have hdocument : (Toml.read (numberedColours ['1'])).toOption.map coloursOf =
      some (some [("muted", some "#abcdef")]) := by decide +kernel
  obtain ⟨table, hshort, hcolours⟩ := exists_table hdocument
  obtain ⟨warnings, hloaded⟩ : ∃ warnings, load (.ofText "f") (.holding (numberedColours ['1'])) =
      .ok ((ofColours (coloursOf table)).1, warnings) := load_of_reads (Host.reads_holding _) hshort
  refine ⟨hload, by simp [hload], _, warnings, hloaded, ?_⟩
  rw [hcolours]
  rfl

end Reclaim.Theme
