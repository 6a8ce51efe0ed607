import Reclaim.Proofs.Config.Content
import Reclaim.Proofs.Config.Loading
import Reclaim.Proofs.Theme.Styles

/-!
What comes of a file of colours. A file that is missing, that cannot be read, that is no document or
whose colours do not pass the check gives the default theme; any other file gives the theme of its
colours. Loading breaks off only where the reading of the file does: at a content that is no text or
has an integer that is too long, and at a path with a NUL.
-/

namespace Reclaim.Theme

open Files

/-- A file is a document that has these texts in its table of colours. -/
def Chooses (path : Path) (host : Host) (colours : Fields) : Prop :=
  ∃ content text table, host.read path.text = .ok content ∧
    String.fromUTF8? content = some text ∧ Toml.read text = .ok table ∧
    coloursOf table = some colours

/-- The theme that a file gives: that of its colours, or the default where there are none that pass
the check. -/
def Gives (path : Path) (host : Host) (theme : Theme) : Prop :=
  (∃ colours, Chooses path host colours ∧ ofFields colours = .ok theme) ∨
    (∀ colours, Chooses path host colours → ∀ chosen, ofFields colours ≠ .ok chosen) ∧
      theme = default

/-- The path of a file can be handed over, and what the file holds, if it can be read, is plain. -/
structure Legible (path : Path) (host : Host) : Prop where
  noNul : host.read path.text ≠ .error .embeddedNul
  plain : ∀ content, host.read path.text = .ok content → Config.Plain content

variable {path : Path} {host : Host} {content : ByteArray} {text : String} {table : Toml.Table}

theorem gives_default (h : ∀ colours, ¬Chooses path host colours) : Gives path host default :=
  .inr ⟨fun colours hchooses => absurd hchooses (h colours), rfl⟩

theorem not_chooses_of_error {failure : Failure} (h : host.read path.text = .error failure)
    (colours : Fields) : ¬Chooses path host colours := by
  rintro ⟨content, text, table, hread, -⟩
  simp [h] at hread

theorem not_chooses_of_malformed (hread : host.read path.text = .ok content)
    (htext : String.fromUTF8? content = some text) (hbad : Toml.read text = .error .malformed)
    (colours : Fields) : ¬Chooses path host colours := by
  rintro ⟨content', text', table, hread', htext', htable, -⟩
  obtain rfl : content = content' := Except.ok.inj (hread.symm.trans hread')
  obtain rfl : text = text' := Option.some.inj (htext.symm.trans htext')
  simp [hbad] at htable

/-- The texts in the table of colours of a document are those that its file chooses. -/
theorem chooses_iff (hread : host.read path.text = .ok content)
    (htext : String.fromUTF8? content = some text) (htable : Toml.read text = .ok table)
    {colours : Fields} : Chooses path host colours ↔ coloursOf table = some colours := by
  constructor
  · rintro ⟨content', text', table', hread', htext', htable', hcolours⟩
    obtain rfl : content = content' := Except.ok.inj (hread.symm.trans hread')
    obtain rfl : text = text' := Option.some.inj (htext.symm.trans htext')
    obtain rfl : table = table' := Except.ok.inj (htable.symm.trans htable')
    exact hcolours
  · intro hcolours
    exact ⟨content, text, table, hread, htext, htable, hcolours⟩

/-- The theme of a table of colours is the one that passes the check, or else the default. -/
theorem ofColours_some (colours : Fields) :
    ofFields colours = .ok (ofColours (some colours)).1 ∨
      (∀ chosen, ofFields colours ≠ .ok chosen) ∧ (ofColours (some colours)).1 = default := by
  cases colours with
  | nil => exact .inl ofFields_nil
  | cons field rest =>
      cases hfields : ofFields (field :: rest) with
      | ok theme => exact .inl (by simp only [ofColours, hfields])
      | error issues => exact .inr ⟨nofun, by simp only [ofColours, hfields]⟩

theorem load_of_error {error : OsError} (h : host.read path.text = .error (.os error)) :
    ∃ warnings, load path host = .ok (default, warnings) := by
  obtain ⟨warnings, hcolours⟩ :
      ∃ warnings, loadColours path host = .ok (none, warnings) := by
    unfold loadColours
    rw [h]
    split
    · cases ‹_›
    · exact ⟨_, rfl⟩
    · exact ⟨_, rfl⟩
    · cases ‹_›
  exact ⟨warnings ++ [], by simp only [load, hcolours, ofColours]⟩

theorem load_of_malformed (hread : host.read path.text = .ok content)
    (htext : String.fromUTF8? content = some text) (hbad : Toml.read text = .error .malformed) :
    load path host = .ok (default, [.malformed path.text]) := by
  simp only [load, loadColours, hread, htext, hbad, ofColours, List.append_nil]

theorem load_of_table (hread : host.read path.text = .ok content)
    (htext : String.fromUTF8? content = some text) (htable : Toml.read text = .ok table) :
    ∃ warnings, load path host = .ok ((ofColours (coloursOf table)).1, warnings) := by
  simp only [load, loadColours, hread, htext, htable]
  cases coloursOf table <;> exact ⟨_, rfl⟩

theorem load_of_legible (h : Legible path host) :
    ∃ theme warnings, load path host = .ok (theme, warnings) ∧ Gives path host theme := by
  cases hread : host.read path.text with
  | error failure =>
      cases failure with
      | embeddedNul => exact absurd hread h.noNul
      | os error =>
          obtain ⟨warnings, hload⟩ := load_of_error hread
          exact ⟨default, warnings, hload, gives_default (not_chooses_of_error hread)⟩
  | ok content =>
      obtain ⟨text, htext, hplain⟩ := h.plain content hread
      cases htable : Toml.read text with
      | error defect =>
          cases defect with
          | hugeInteger => exact absurd htable hplain
          | malformed =>
              exact ⟨default, _, load_of_malformed hread htext htable,
                gives_default (not_chooses_of_malformed hread htext htable)⟩
      | ok table =>
          obtain ⟨warnings, hload⟩ := load_of_table hread htext htable
          refine ⟨_, warnings, hload, ?_⟩
          have hchooses : ∀ colours, Chooses path host colours ↔ coloursOf table = some colours :=
            fun _ => chooses_iff hread htext htable
          cases hcolours : coloursOf table with
          | none => exact gives_default fun colours => by simp [hchooses, hcolours]
          | some colours =>
              rcases ofColours_some colours with hpasses | ⟨hfails, hdefault⟩
              · exact .inl ⟨colours, (hchooses colours).mpr hcolours, hpasses⟩
              · refine .inr ⟨fun colours' hchosen => ?_, hdefault⟩
                have hsame := (hchooses colours').mp hchosen
                obtain rfl : colours = colours' := Option.some.inj (hcolours.symm.trans hsame)
                exact hfails

theorem load_of_not_legible (h : ¬Legible path host) :
    ∃ failure, load path host = .error failure := by
  cases hread : host.read path.text with
  | error failure =>
      cases failure with
      | embeddedNul => exact ⟨.embeddedNul, by simp only [load, loadColours, hread]⟩
      | os error => exact absurd ⟨by simp [hread], fun _ hok => by simp [hread] at hok⟩ h
  | ok content =>
      have hplain : ¬Config.Plain content := by
        intro hplain
        refine h ⟨by simp [hread], fun content' hok => ?_⟩
        obtain rfl : content = content' := Except.ok.inj (hread.symm.trans hok)
        exact hplain
      cases htext : String.fromUTF8? content with
      | none => exact ⟨.notText, by simp only [load, loadColours, hread, htext]⟩
      | some text =>
          have hhuge : Toml.read text = .error .hugeInteger := by
            by_contra hno
            exact hplain ⟨text, htext, hno⟩
          exact ⟨.hugeInteger, by simp only [load, loadColours, hread, htext, hhuge]⟩

/-- Loading gives a theme exactly if there is a path to look at and a legible file or none at it. It
is the theme of the colours in the file if these pass the check, and the default if not; that the
system has an error when the file is opened or read is one of the ways to the default. -/
theorem theme_file_or_default (given : Option Path) (env : Environment) (host : Host) :
    ((∃ path theme warnings, pathOr given env = .ok path ∧
        load path host = .ok (theme, warnings)) ↔
      ∃ path, pathOr given env = .ok path ∧ Legible path host) ∧
    (∀ path theme warnings, load path host = .ok (theme, warnings) → Gives path host theme) ∧
    ∀ path error, host.read path.text = .error (.os error) →
      ∃ warnings, load path host = .ok (default, warnings) := by
  refine ⟨⟨?_, ?_⟩, ?_, fun path error => load_of_error⟩
  · rintro ⟨path, theme, warnings, hpath, hload⟩
    refine ⟨path, hpath, ?_⟩
    by_contra hno
    obtain ⟨failure, hfailure⟩ := load_of_not_legible hno
    simp [hfailure] at hload
  · rintro ⟨path, hpath, hlegible⟩
    obtain ⟨theme, warnings, hload, -⟩ := load_of_legible hlegible
    exact ⟨path, theme, warnings, hpath, hload⟩
  · intro path theme warnings hload
    by_cases hlegible : Legible path host
    · obtain ⟨theme', warnings', hload', hgives⟩ := load_of_legible hlegible
      obtain ⟨rfl, -⟩ := Prod.mk.inj (Except.ok.inj (hload.symm.trans hload'))
      exact hgives
    · obtain ⟨failure, hfailure⟩ := load_of_not_legible hlegible
      simp [hfailure] at hload

def mutedText : String := "[colors]\nmuted = '#abcdef'\nother = 1\n"

def mutedFile : Host :=
  { Host.bare with tree := Tree.empty.put ["t.toml"] (.file mutedText.toUTF8) }

theorem theme_file_or_default_muted :
    ∃ theme warnings, load (.ofText "t.toml") mutedFile = .ok (theme, warnings) ∧
      theme.colour .muted = "#abcdef" ∧
      ∃ warnings, load (.ofText "t.toml/x") mutedFile = .ok (default, warnings) := by
  have htext := fromUTF8?_toUTF8 mutedText
  have hread : mutedFile.read (Path.ofText "t.toml").text = .ok mutedText.toUTF8 := rfl
  have hcolours : (Toml.read mutedText).toOption.bind coloursOf =
      some [("muted", some "#abcdef")] := by decide +kernel
  obtain ⟨table, htable, hcolours⟩ := Option.bind_eq_some_iff.mp hcolours
  replace htable : Toml.read mutedText = .ok table := by
    cases hresult : Toml.read mutedText <;> simp_all [Except.toOption]
  have hlegible : Legible (.ofText "t.toml") mutedFile := by
    refine ⟨by simp [hread], fun content hcontent => ⟨mutedText, ?_, by simp [htable]⟩⟩
    obtain rfl : mutedText.toUTF8 = content := Except.ok.inj (hread.symm.trans hcontent)
    exact htext
  have h := theme_file_or_default (some (.ofText "t.toml")) ⟨"/home", none⟩ mutedFile
  obtain ⟨path, theme, warnings, hpath, hload⟩ := h.1.mpr ⟨_, rfl, hlegible⟩
  obtain rfl : .ofText "t.toml" = path := Except.ok.inj hpath
  refine ⟨theme, warnings, hload, ?_,
    h.2.2 (.ofText "t.toml/x") (.ofReason .notDirectory ["t.toml/x"]) rfl⟩
  have hchooses := (chooses_iff hread htext htable).mpr hcolours
  rcases h.2.1 _ _ _ hload with ⟨colours, hchosen, hfields⟩ | ⟨hno, -⟩
  · have hsame := (chooses_iff hread htext htable).mp hchosen
    obtain rfl := Option.some.inj (hcolours.symm.trans hsame)
    exact Except.ok.inj hfields ▸ rfl
  · exact absurd rfl (hno _ hchooses _)

def strayByteFile : Host :=
  { Host.bare with tree := Tree.empty.put ["t.toml"] (.file ⟨#[0xff]⟩) }

/-- Where the content of a file is no text, loading ends without a theme. -/
theorem stray_byte_without_theme :
    load (.ofText "t.toml") strayByteFile = .error .notText ∧
      ¬∃ theme warnings, load (.ofText "t.toml") strayByteFile = .ok (theme, warnings) :=
  ⟨rfl, nofun⟩

end Reclaim.Theme
