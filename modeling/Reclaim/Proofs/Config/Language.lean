import Reclaim.Proofs.Config.Content
import Reclaim.Proofs.Config.Loading
import Reclaim.Proofs.Course.Settings
import Reclaim.Proofs.Toml.Huge

/-!
Which documents are settings. A document may name the worker and the strategy, each with a text and
nothing else, and may leave out either. Of any other document every key that is at fault is reported
once. A tracker can be made of all settings that are accepted, and deletes with their strategy what
it is given without one.
-/

namespace Reclaim

theorem Builtin.ofText?_eq_some_iff {text : String} {strategy : Builtin} :
    ofText? text = some strategy ↔ text = strategy.name := by
  constructor
  · intro h
    have hname := List.find?_some h
    exact (of_decide_eq_true hname).symm
  · rintro rfl
    exact ofText?_name strategy

namespace Config

/-- What a document of settings may say under a key. -/
inductive Admits : String → Toml.Value → Prop
  | threadName {name : String} (given : name ≠ "") : Admits threadNameKey (.string name)
  | strategy (strategy : Builtin) : Admits strategyKey (.string strategy.name)

/-- The same of a value that is seen as a text or as none. -/
def Fits (key : String) (value : Option String) : Prop :=
  ∃ text, value = some text ∧ Admits key (.string text)

def keys : List String := [threadNameKey, strategyKey]

/-- The settings of a document: what it says under the two keys, and the defaults where it says
nothing. -/
structure Settles (table : Toml.Table) (config : Config) : Prop where
  threadName : ∀ value, (threadNameKey, value) ∈ table → value = .string config.threadName
  strategy : ∀ value, (strategyKey, value) ∈ table → value = .string config.defaultStrategy.name
  noThreadName : threadNameKey ∉ table.map (·.1) → config.threadName = default.threadName
  noStrategy : strategyKey ∉ table.map (·.1) → config.defaultStrategy = default.defaultStrategy

variable {fields : Fields} {table : Toml.Table} {key : String} {value : Option String}
  {config : Config}

theorem fits_text? {value : Toml.Value} : Fits key value.text? ↔ Admits key value := by
  constructor
  · rintro ⟨text, htext, hadmits⟩
    exact Toml.Value.text?_eq_some_iff.mp htext ▸ hadmits
  · intro h
    cases h with
    | threadName given => exact ⟨_, rfl, .threadName given⟩
    | strategy strategy => exact ⟨_, rfl, .strategy strategy⟩

theorem fits_threadName : Fits threadNameKey value ↔ ∃ name, value = some name ∧ name ≠ "" := by
  constructor
  · rintro ⟨name, rfl, hadmits⟩
    -- the cases need the key as a variable
    generalize hkey : threadNameKey = key at hadmits
    cases hadmits with
    | threadName given => exact ⟨name, rfl, given⟩
    | strategy strategy => exact absurd hkey (by decide)
  · rintro ⟨name, rfl, given⟩
    exact ⟨name, rfl, .threadName given⟩

theorem fits_strategy :
    Fits strategyKey value ↔ ∃ strategy, value = some (Builtin.name strategy) := by
  constructor
  · rintro ⟨name, rfl, hadmits⟩
    generalize hkey : strategyKey = key at hadmits
    cases hadmits with
    | threadName given => exact absurd hkey (by decide)
    | strategy strategy => exact ⟨strategy, rfl⟩
  · rintro ⟨strategy, rfl⟩
    exact ⟨_, rfl, .strategy strategy⟩

theorem known_of_fits (key : String) (value : Option String) (h : Fits key value) :
    key ∈ keys := by
  obtain ⟨text, -, hadmits⟩ := h
  cases hadmits <;> decide

section Readers

theorem readThreadName_of_absent (h : fields.get? threadNameKey = none) :
    readThreadName fields = .ok ⟨default.threadName, default.threadName_ne⟩ := by
  simp only [readThreadName, h]

theorem readThreadName_of_fits {name : String} (h : fields.get? threadNameKey = some (some name))
    (given : name ≠ "") : readThreadName fields = .ok ⟨name, given⟩ := by
  simp only [readThreadName, h, given, dite_false]

theorem readThreadName_of_not_fits (h : fields.get? threadNameKey = some value)
    (hno : ¬Fits threadNameKey value) :
    ∃ complaint, readThreadName fields = .error ⟨some threadNameKey, complaint⟩ := by
  cases value with
  | none => exact ⟨_, by simp only [readThreadName, h]; rfl⟩
  | some name =>
      obtain rfl : name = "" := by
        by_contra hne
        exact hno (fits_threadName.mpr ⟨name, rfl, hne⟩)
      exact ⟨_, by simp only [readThreadName, h, dite_true]; rfl⟩

theorem readStrategy_of_absent (h : fields.get? strategyKey = none) :
    readStrategy fields = .ok default.defaultStrategy := by
  simp only [readStrategy, h]

theorem readStrategy_of_fits {strategy : Builtin}
    (h : fields.get? strategyKey = some (some strategy.name)) :
    readStrategy fields = .ok strategy := by
  simp only [readStrategy, h, Option.bind_some, Builtin.ofText?_name]

theorem readStrategy_of_not_fits (h : fields.get? strategyKey = some value)
    (hno : ¬Fits strategyKey value) :
    ∃ complaint, readStrategy fields = .error ⟨some strategyKey, complaint⟩ := by
  have hnone : value.bind Builtin.ofText? = none := by
    rw [Option.bind_eq_none_iff]
    intro text htext
    by_contra hne
    obtain ⟨strategy, hstrategy⟩ := Option.ne_none_iff_exists'.mp hne
    obtain rfl := Builtin.ofText?_eq_some_iff.mp hstrategy
    exact hno (fits_strategy.mpr ⟨strategy, htext⟩)
  exact ⟨_, by simp only [readStrategy, h, hnone]; rfl⟩

theorem eq_of_readThreadName {name : { name : String // name ≠ "" }}
    (h : readThreadName fields = .ok name) (hget : fields.get? threadNameKey = some value) :
    value = some name.1 := by
  by_cases hfit : Fits threadNameKey value
  · obtain ⟨text, rfl, given⟩ := fits_threadName.mp hfit
    obtain rfl := Except.ok.inj (h.symm.trans (readThreadName_of_fits hget given))
    rfl
  · obtain ⟨complaint, herror⟩ := readThreadName_of_not_fits hget hfit
    simp [h] at herror

theorem eq_of_readStrategy {strategy : Builtin} (h : readStrategy fields = .ok strategy)
    (hget : fields.get? strategyKey = some value) : value = some strategy.name := by
  by_cases hfit : Fits strategyKey value
  · obtain ⟨named, rfl⟩ := fits_strategy.mp hfit
    obtain rfl := Except.ok.inj (h.symm.trans (readStrategy_of_fits hget))
    rfl
  · obtain ⟨complaint, herror⟩ := readStrategy_of_not_fits hget hfit
    simp [h] at herror

end Readers

def issues (fields : Fields) : List Issue :=
  issueOf (readThreadName fields) ++ issueOf (readStrategy fields) ++ fields.unknown keys

theorem reports_issues (distinct : fields.Distinct) : Reports Fits keys fields (issues fields) := by
  refine ⟨issueOf (readThreadName fields) ++ (issueOf (readStrategy fields) ++ []), ?_, ?_⟩
  · refine Blames.read distinct ?_ ?_ ?_ (Blames.read distinct ?_ ?_ ?_ .done)
    · exact fun habsent => ⟨_, readThreadName_of_absent habsent⟩
    · intro value hget hfit
      obtain ⟨name, rfl, given⟩ := fits_threadName.mp hfit
      exact ⟨_, readThreadName_of_fits hget given⟩
    · exact fun value hget hno => readThreadName_of_not_fits hget hno
    · exact fun habsent => ⟨_, readStrategy_of_absent habsent⟩
    · intro value hget hfit
      obtain ⟨strategy, rfl⟩ := fits_strategy.mp hfit
      exact ⟨_, readStrategy_of_fits hget⟩
    · exact fun value hget hno => readStrategy_of_not_fits hget hno
  · rw [issues, List.append_nil]

/-- A table gives settings if it has no issues, and its issues if it has some. -/
theorem ofFields_cases (fields : Fields) :
    (issues fields = [] ∧ ∃ name strategy, readThreadName fields = .ok name ∧
        readStrategy fields = .ok strategy ∧
        ofFields fields = .ok ⟨name.1, strategy, name.2⟩) ∨
      issues fields ≠ [] ∧ ofFields fields = .error (issues fields) := by
  by_cases hnone : issues fields = []
  · left
    obtain ⟨hread, hunknown⟩ := List.append_eq_nil_iff.mp hnone
    obtain ⟨hname, hstrategy⟩ := List.append_eq_nil_iff.mp hread
    obtain ⟨name, hname⟩ := issueOf_eq_nil.mp hname
    obtain ⟨strategy, hstrategy⟩ := issueOf_eq_nil.mp hstrategy
    refine ⟨hnone, name, strategy, hname, hstrategy, ?_⟩
    rw [keys] at hunknown
    simp only [ofFields, hname, hstrategy, hunknown]
  · refine .inr ⟨hnone, ?_⟩
    unfold ofFields
    simp only
    split
    · rename_i hname hstrategy hunknown
      exact absurd (by simp [issues, keys, hname, hstrategy, hunknown, issueOf]) hnone
    · rfl

theorem get?_ofTable (distinct : table.Distinct) {value : Toml.Value} (h : (key, value) ∈ table) :
    (Fields.ofTable table).get? key = some value.text? :=
  (Fields.get?_eq_some_iff (distinct_ofTable distinct)).mpr (mem_ofTable.mpr ⟨value, h, rfl⟩)

theorem get?_ofTable_of_absent (h : key ∉ table.map (·.1)) :
    (Fields.ofTable table).get? key = none :=
  find?_key_eq_none_iff.mpr (by rwa [keys_ofTable])

theorem settles_of_ofFields (distinct : table.Distinct)
    (h : ofFields (.ofTable table) = .ok config) : Settles table config := by
  obtain ⟨name, strategy, hname, hstrategy, rfl⟩ : ∃ name strategy,
      readThreadName (.ofTable table) = .ok name ∧ readStrategy (.ofTable table) = .ok strategy ∧
        config = ⟨name.1, strategy, name.2⟩ := by
    rcases ofFields_cases (.ofTable table) with
      ⟨-, name, strategy, hname, hstrategy, hok⟩ | ⟨-, herror⟩
    · exact ⟨name, strategy, hname, hstrategy, Except.ok.inj (h.symm.trans hok)⟩
    · simp [h] at herror
  constructor
  case threadName =>
    intro value hmem
    have hget := get?_ofTable distinct hmem
    exact Toml.Value.text?_eq_some_iff.mp (eq_of_readThreadName hname hget)
  case strategy =>
    intro value hmem
    have hget := get?_ofTable distinct hmem
    exact Toml.Value.text?_eq_some_iff.mp (eq_of_readStrategy hstrategy hget)
  case noThreadName =>
    intro habsent
    have hdefault := readThreadName_of_absent (get?_ofTable_of_absent habsent)
    obtain rfl := Except.ok.inj (hname.symm.trans hdefault)
    rfl
  case noStrategy =>
    intro habsent
    have hdefault := readStrategy_of_absent (get?_ofTable_of_absent habsent)
    exact Except.ok.inj (hstrategy.symm.trans hdefault)

theorem admits_iff_fits : (∀ e ∈ table, Admits e.1 e.2) ↔
    ∀ key value, (key, value) ∈ Fields.ofTable table → Fits key value := by
  constructor
  · intro h key value hmem
    obtain ⟨v, hv, rfl⟩ := mem_ofTable.mp hmem
    exact fits_text?.mpr (h _ hv)
  · intro h e he
    exact fits_text?.mp (h e.1 e.2.text? (mem_ofTable.mpr ⟨e.2, he, rfl⟩))

theorem issues_eq_nil_iff (distinct : table.Distinct) :
    issues (.ofTable table) = [] ↔ ∀ e ∈ table, Admits e.1 e.2 :=
  ((reports_issues (distinct_ofTable distinct)).eq_nil_iff known_of_fits).trans
    admits_iff_fits.symm

/-- A document is accepted or refused as a whole, and refused with its issues. -/
theorem ofFields_ofTable (distinct : table.Distinct) :
    ((∀ e ∈ table, Admits e.1 e.2) ∧
        ∃ config, ofFields (.ofTable table) = .ok config ∧ Settles table config) ∨
      (¬∀ e ∈ table, Admits e.1 e.2) ∧
        ∃ issues, ofFields (.ofTable table) = .error issues ∧
          Reports Fits keys (.ofTable table) issues ∧ (issues.map (·.field)).Nodup := by
  rw [← issues_eq_nil_iff distinct]
  rcases ofFields_cases (.ofTable table) with ⟨hnone, name, strategy, -, -, hok⟩ | ⟨hsome, herror⟩
  · exact .inl ⟨hnone, _, hok, settles_of_ofFields distinct hok⟩
  · have hreports := reports_issues (distinct_ofTable distinct)
    exact .inr ⟨hsome, _, herror, hreports,
      hreports.nodup (by decide) (distinct_ofTable distinct)⟩

section Loading

variable {path : Path} {host : Host} {content : ByteArray} {text : String}

theorem load_eq_ofBytes (hpresent : host.present path.text = .ok true)
    (hread : host.read path.text = .ok content) : load path host = ofBytes content := by
  simp only [load, hpresent, hread]

theorem ofBytes_ne_missing {shown : String} : ofBytes content ≠ .error (.missing shown) := by
  intro h
  unfold ofBytes at h
  split at h
  · cases h
  · split at h
    · cases h
    · cases h
    · split at h <;> cases h

theorem load_eq_missing_iff :
    load path host = .error (.missing path.text) ↔ host.present path.text = .ok false := by
  unfold load
  constructor
  · intro h
    split at h
    · cases h
    · assumption
    · split at h
      · exact absurd h ofBytes_ne_missing
      · cases h
      · cases h
  · intro h
    simp only [h]

/-- The defaults stand in for settings that are missing, and only for these. -/
theorem loadOrDefault_ne_load_iff :
    loadOrDefault path host ≠ load path host ↔ host.present path.text = .ok false := by
  rw [← load_eq_missing_iff]
  rcases loadOrDefault_cases path host with ⟨hmissing, hdefault⟩ | ⟨hno, hsame⟩
  · simp [hmissing, hdefault]
  · simp [hsame, hno]

theorem loadOrDefault_of_missing (h : host.present path.text = .ok false) :
    loadOrDefault path host = .ok default := by
  rcases loadOrDefault_cases path host with ⟨-, hdefault⟩ | ⟨hno, -⟩
  · exact hdefault
  · exact absurd (load_eq_missing_iff.mpr h) (hno _)

/-- There is a file at a path, and it holds a text. -/
structure Holds (path : Path) (host : Host) (text : String) : Prop where
  present : host.present path.text = .ok true
  read : host.Reads path.text text

theorem load_of_table (h : Holds path host text) (htable : Toml.read text = .ok table) :
    ((∀ e ∈ table, Admits e.1 e.2) ∧
        ∃ config, load path host = .ok config ∧ Settles table config) ∨
      (¬∀ e ∈ table, Admits e.1 e.2) ∧
        ∃ issues, load path host = .error (.invalid issues) ∧
          Reports Fits keys (.ofTable table) issues ∧ (issues.map (·.field)).Nodup := by
  obtain ⟨content, hread, htext⟩ := h.read
  simp only [load_eq_ofBytes h.present hread, ofBytes, htext, htable]
  rcases ofFields_ofTable (Toml.distinct_of_read htable) with
    ⟨hall, config, hok, hsettles⟩ | ⟨hno, issues, herror, hissues⟩
  · exact .inl ⟨hall, config, by simp only [hok], hsettles⟩
  · exact .inr ⟨hno, issues, by simp only [herror], hissues⟩

theorem load_of_defect (h : Holds path host text) :
    (Toml.read text = .error .malformed → load path host = .error .malformed) ∧
      (Toml.read text = .error .hugeInteger → load path host = .error .hugeInteger) := by
  obtain ⟨content, hread, htext⟩ := h.read
  rw [load_eq_ofBytes h.present hread, ofBytes, htext]
  constructor <;> intro hdefect <;> simp only [hdefect]

end Loading

/-- A tracker can be made of settings, and deletes with their strategy what it is given without
one. -/
def Equips (config : Config) : Prop :=
  ∃ t, Tracker.ofConfig config = .ok t ∧ t.threadName = config.threadName ∧
    t.defaultStrategy = config.defaultStrategy.strategy ∧
    Course.Defaults t config.defaultStrategy.strategy

theorem equips (config : Config) : config.Equips :=
  ⟨_, Tracker.ofConfig_eq config, rfl, rfl, Course.defaults_of_defaultStrategy rfl⟩

/-- A document that is malformed is refused as such, and one with an integer that is too long ends
loading with an error of its own. Any other gives settings exactly if each of its keys admits its
value, and is refused with one issue for each key at fault if not. The defaults stand in exactly if
nothing is found at the path. -/
theorem documents_accepted_as_settings {path : Path} {host : Host} {text : String}
    (h : Holds path host text) :
    (Toml.read text = .error .malformed → load path host = .error .malformed) ∧
      (Toml.read text = .error .hugeInteger → load path host = .error .hugeInteger) ∧
      (∀ table, Toml.read text = .ok table →
        ((∃ config, load path host = .ok config) ↔ ∀ e ∈ table, Admits e.1 e.2) ∧
          (∀ config, load path host = .ok config → Settles table config ∧ config.Equips) ∧
          ((¬∀ e ∈ table, Admits e.1 e.2) →
            ∃ issues, load path host = .error (.invalid issues) ∧
              Reports Fits keys (.ofTable table) issues ∧ (issues.map (·.field)).Nodup)) ∧
      loadOrDefault path host = load path host ∧
      ∀ path host, (loadOrDefault path host ≠ load path host ↔
          host.present path.text = .ok false) ∧
        (host.present path.text = .ok false → loadOrDefault path host = .ok default) := by
  refine ⟨(load_of_defect h).1, (load_of_defect h).2, ?_, ?_, fun path host =>
    ⟨loadOrDefault_ne_load_iff, loadOrDefault_of_missing⟩⟩
  · intro table htable
    rcases load_of_table h htable with
      ⟨hall, config, hok, hsettles⟩ | ⟨hno, issues, herror, hissues⟩
    · refine ⟨iff_of_true ⟨config, hok⟩ hall, ?_, fun hno => absurd hall hno⟩
      intro config' hok'
      obtain rfl := Except.ok.inj (hok.symm.trans hok')
      exact ⟨hsettles, config.equips⟩
    · refine ⟨iff_of_false (fun ⟨config, hok⟩ => by simp [hok] at herror) hno, ?_,
        fun _ => ⟨issues, herror, hissues⟩⟩
      intro config hok
      simp [hok] at herror
  · by_contra hne
    have habsent := loadOrDefault_ne_load_iff.mp hne
    simp [h.present] at habsent

theorem holds_holding (text : String) : Holds (.ofText "f") (.holding text) text :=
  ⟨rfl, Host.reads_holding text⟩

/-- A document that names a strategy, and one with two keys at fault. -/
theorem documents_accepted_as_settings_force :
    (∃ config, load (.ofText "f") (.holding "default_strategy = 'force'\n") = .ok config ∧
        config.Equips ∧ config.threadName = default.threadName ∧
        config.defaultStrategy = .force) ∧
      ∃ issues, load (.ofText "f") (.holding "x.y = 1\nthread_name = 2\n") =
          .error (.invalid issues) ∧
        (issues.map (·.field)).Nodup ∧ some threadNameKey ∈ issues.map (·.field) ∧
        some "x" ∈ issues.map (·.field) := by
  constructor
  · have hfields : (Toml.read "default_strategy = 'force'\n").toOption.map Fields.ofTable =
        some [(strategyKey, some "force")] := by decide +kernel
    obtain ⟨table, hread, htable⟩ := exists_table hfields
    have h := (documents_accepted_as_settings (holds_holding _)).2.2.1 table hread
    have hfit : Fits strategyKey (some "force") := fits_strategy.mpr ⟨.force, rfl⟩
    obtain ⟨config, hload⟩ := h.1.mpr (admits_iff_fits.mpr (by simpa [htable] using hfit))
    obtain ⟨hsettles, hequips⟩ := h.2.1 config hload
    obtain ⟨value, hmem, hvalue⟩ : ∃ value, (strategyKey, value) ∈ table ∧
        value.text? = some "force" := mem_ofTable.mp (by simp [htable])
    have hname : Toml.Value.string "force" = .string config.defaultStrategy.name :=
      (Toml.Value.text?_eq_some_iff.mp hvalue).symm.trans (hsettles.strategy value hmem)
    refine ⟨config, hload, hequips, hsettles.noThreadName ?_, ?_⟩
    · rw [← keys_ofTable, htable]
      decide
    · have hforce := Builtin.ofText?_eq_some_iff.mpr (Toml.Value.string.inj hname)
      exact (Option.some.inj hforce).symm
  · have hfields : (Toml.read "x.y = 1\nthread_name = 2\n").toOption.map Fields.ofTable =
        some [("x", none), (threadNameKey, none)] := by decide +kernel
    obtain ⟨table, hread, htable⟩ := exists_table hfields
    have h := (documents_accepted_as_settings (holds_holding _)).2.2.1 table hread
    have hname : ¬Fits threadNameKey none := by simp [Fits]
    have hunknown : ¬Fits "x" none := by simp [Fits]
    obtain ⟨issues, hload, hreports, hnodup⟩ := h.2.2 fun hall =>
      hname (admits_iff_fits.mp hall threadNameKey none (by simp [htable]))
    rw [htable] at hreports
    refine ⟨issues, hload, hnodup, ?_, ?_⟩
    · exact (hreports.mem_iff known_of_fits).mpr ⟨threadNameKey, ⟨none, by simp, hname⟩, rfl⟩
    · exact (hreports.mem_iff known_of_fits).mpr ⟨"x", ⟨none, by simp, hunknown⟩, rfl⟩

def malformedText : String := Toml.numberedText "n" Toml.manyOnes ['[']

/-- A text that is no document, not even with a short integer, ends loading with an error that is
none of the settings, because an integer in it is too long. -/
theorem long_integer_hides_malformed :
    (∀ table, Toml.read malformedText ≠ .ok table) ∧
      (∀ table, Toml.read (Toml.numberedText "n" ['1'] ['[']) ≠ .ok table) ∧
      load (.ofText "f") (.holding malformedText) = .error .hugeInteger ∧
      load (.ofText "f") (.holding malformedText) ≠ .error .malformed := by
  have hread : Toml.read malformedText = .error .hugeInteger := Toml.read_manyOnes (by decide)
  have hload := (load_of_defect (holds_holding malformedText)).2 hread
  refine ⟨by simp [hread], fun table hshort => ?_, hload, by simp [hload]⟩
  have hnone : (Toml.read (Toml.numberedText "n" ['1'] ['['])).toOption.isNone = true := by
    decide +kernel
  simp [hshort, Except.toOption] at hnone

end Config
end Reclaim
