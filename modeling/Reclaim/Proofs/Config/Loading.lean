import Reclaim.Proofs.Command.Display
import Reclaim.Proofs.Course.Basic
import Reclaim.Proofs.Host.Calls

/-!
How loading settings fails. Four errors are those of the settings themselves: nothing is there, the
file cannot be read, it is no document, or its table does not fit. Any other error comes from the
test for the file, from a file that holds no text, or from an integer that is too long; without
these, loading gives settings or one of the four, and the command that shows the settings ends with
a table or with one line about the error, if the console can show these.
-/

namespace Reclaim

open Files

namespace Host

theorem read_ne_embeddedNul {host : Host} {text : String} (h : holdsNul text = false) :
    host.read text ≠ .error .embeddedNul := by
  unfold read guarded readNow
  rw [h]
  split
  · nofun
  · split
    · contradiction
    · split <;> nofun

end Host

namespace Config

inductive Documented (path : Path) : ConfigError → Prop
  | missing : Documented path (.missing path.text)
  | unreadable (error : OsError) : Documented path (.unreadable error)
  | malformed : Documented path .malformed
  | invalid {issues : List Issue} (found : issues ≠ []) : Documented path (.invalid issues)

/-- Settings, or an error of the settings on file. -/
def Answers (path : Path) (result : Except ConfigError Config) : Prop :=
  (∃ config, result = .ok config) ∨ ∃ error, result = .error error ∧ Documented path error

/-- A content that is text and holds no integer that is too long. -/
def Plain (content : ByteArray) : Prop :=
  ∃ text, String.fromUTF8? content = some text ∧ Toml.read text ≠ .error .hugeInteger

/-- It can be found out whether there is a file, and what it holds is plain. -/
structure Legible (path : Path) (host : Host) : Prop where
  fault : host.fault? .presence path.text = none
  short : Host.holdsNul path.text = false →
    host.tree.resolve host.cwd true path.text ≠ .error .nameTooLong
  plain : ∀ content, host.present path.text = .ok true → host.read path.text = .ok content →
    Plain content

variable {path : Path} {host : Host}

theorem Documented.isReported {error : ConfigError} (h : Documented path error) :
    error.isReported = true := by
  cases h <;> rfl

theorem Legible.inspected (h : Legible path host) :
    ∃ there, host.present path.text = .ok there :=
  Host.exists_present_iff.mpr ⟨h.fault, h.short⟩

theorem legible_of_present {there : Bool} (hthere : host.present path.text = .ok there)
    (plain : ∀ content, host.present path.text = .ok true → host.read path.text = .ok content →
      Plain content) : Legible path host := by
  obtain ⟨fault, short⟩ := Host.exists_present_iff.mp ⟨there, hthere⟩
  exact ⟨fault, short, plain⟩

theorem issues_ne_nil {fields : Fields} {issues : List Issue}
    (h : ofFields fields = .error issues) : issues ≠ [] := by
  rintro rfl
  simp only [ofFields] at h
  split at h
  · cases h
  · rename_i hno
    simp only [Except.error.injEq, List.append_eq_nil_iff] at h
    obtain ⟨⟨hname, hstrategy⟩, hunknown⟩ := h
    obtain ⟨name, hname⟩ := issueOf_eq_nil.mp hname
    obtain ⟨strategy, hstrategy⟩ := issueOf_eq_nil.mp hstrategy
    exact hno name.1 name.2 strategy hname hstrategy hunknown

theorem ofBytes_of_plain {content : ByteArray} (h : Plain content) :
    Answers path (ofBytes content) := by
  obtain ⟨text, htext, hread⟩ := h
  simp only [ofBytes, htext]
  cases htable : Toml.read text with
  | error defect =>
      cases defect with
      | malformed => exact .inr ⟨_, rfl, .malformed⟩
      | hugeInteger => exact absurd htable hread
  | ok table =>
      cases hfields : ofFields (.ofTable table) with
      | ok config => exact .inl ⟨config, by simp only [hfields]⟩
      | error issues =>
          exact .inr ⟨.invalid issues, by simp only [hfields], .invalid (issues_ne_nil hfields)⟩

theorem ofBytes_of_not_plain {content : ByteArray} (h : ¬Plain content) :
    ∃ error, ofBytes content = .error error ∧ error.isReported = false := by
  cases htext : String.fromUTF8? content with
  | none => exact ⟨.notText, by simp only [ofBytes, htext], rfl⟩
  | some text =>
      have hhuge : Toml.read text = .error .hugeInteger := by
        by_contra hno
        exact h ⟨text, htext, hno⟩
      exact ⟨.hugeInteger, by simp only [ofBytes, htext, hhuge], rfl⟩

/-- Loading gives settings or one of their errors if the file is legible. -/
theorem load_of_legible (h : Legible path host) : Answers path (load path host) := by
  obtain ⟨there, hthere⟩ := h.inspected
  unfold load
  rw [hthere]
  cases there with
  | false => exact .inr ⟨_, rfl, .missing⟩
  | true =>
      cases hread : host.read path.text with
      | ok content => exact ofBytes_of_plain (h.plain content hthere hread)
      | error failure =>
          cases failure with
          | os error => exact .inr ⟨_, rfl, .unreadable error⟩
          | embeddedNul =>
              exact absurd hread (Host.read_ne_embeddedNul (Host.noNul_of_present hthere))

/-- Loading ends with another error if the file is not. -/
theorem load_of_not_legible (h : ¬Legible path host) :
    ∃ error, load path host = .error error ∧ error.isReported = false := by
  unfold load
  cases hthere : host.present path.text with
  | error error => exact ⟨_, rfl, rfl⟩
  | ok there =>
      cases there with
      | false =>
          exact absurd (legible_of_present hthere fun _ htrue => by simp [hthere] at htrue) h
      | true =>
          cases hread : host.read path.text with
          | error failure =>
              exact absurd (legible_of_present hthere fun _ _ hok => by simp [hread] at hok) h
          | ok content =>
              apply ofBytes_of_not_plain
              intro hplain
              refine h (legible_of_present hthere fun content' _ hok => ?_)
              obtain rfl : content = content' := Except.ok.inj (hread.symm.trans hok)
              exact hplain

theorem not_answers {result : Except ConfigError Config} {error : ConfigError}
    (herror : result = .error error) (hunreported : error.isReported = false) :
    ¬Answers path result := by
  rintro (⟨config, hok⟩ | ⟨other, hother, hdocumented⟩)
  · simp [hok] at herror
  · obtain rfl : other = error := Except.error.inj (hother.symm.trans herror)
    simp [hdocumented.isReported] at hunreported

theorem answers_load_iff : Answers path (load path host) ↔ Legible path host := by
  constructor
  · intro h
    by_contra hno
    obtain ⟨error, herror, hunreported⟩ := load_of_not_legible hno
    exact not_answers herror hunreported h
  · exact load_of_legible

/-- Where the defaults stand in for missing settings, all else is as it was loaded. -/
theorem loadOrDefault_cases (path : Path) (host : Host) :
    load path host = .error (.missing path.text) ∧ loadOrDefault path host = .ok default ∨
      (∀ shown, load path host ≠ .error (.missing shown)) ∧
        loadOrDefault path host = load path host := by
  unfold loadOrDefault
  split
  · rename_i shown hload
    left
    refine ⟨?_, rfl⟩
    by_cases hlegible : Legible path host
    · rcases load_of_legible hlegible with ⟨config, hok⟩ | ⟨error, herror, hdocumented⟩
      · simp [hok] at hload
      · obtain rfl : error = .missing shown := Except.error.inj (herror.symm.trans hload)
        cases hdocumented
        exact hload
    · obtain ⟨error, herror, hunreported⟩ := load_of_not_legible hlegible
      obtain rfl : error = .missing shown := Except.error.inj (herror.symm.trans hload)
      cases hunreported
  · rename_i hno
    exact .inr ⟨hno, rfl⟩

/-- The defaults stand in for missing settings; what else loading answers is answered. -/
def AnswersOrDefault (path : Path) (result : Except ConfigError Config) : Prop :=
  (∃ config, result = .ok config) ∨
    ∃ error, result = .error error ∧ Documented path error ∧ ∀ shown, error ≠ .missing shown

theorem loadOrDefault_of_legible (h : Legible path host) :
    AnswersOrDefault path (loadOrDefault path host) := by
  rcases loadOrDefault_cases path host with ⟨-, hdefault⟩ | ⟨hno, hsame⟩
  · exact .inl ⟨_, hdefault⟩
  · rw [hsame]
    rcases load_of_legible h with hok | ⟨error, herror, hdocumented⟩
    · exact .inl hok
    · refine .inr ⟨error, herror, hdocumented, ?_⟩
      rintro shown rfl
      exact hno shown herror

theorem loadOrDefault_of_not_legible (h : ¬Legible path host) :
    ∃ error, loadOrDefault path host = .error error ∧ error.isReported = false := by
  obtain ⟨error, herror, hunreported⟩ := load_of_not_legible h
  rcases loadOrDefault_cases path host with ⟨hmissing, -⟩ | ⟨-, hsame⟩
  · obtain rfl : error = .missing path.text := Except.error.inj (herror.symm.trans hmissing)
    cases hunreported
  · exact ⟨error, hsame.trans herror, hunreported⟩

theorem AnswersOrDefault.answers {result : Except ConfigError Config}
    (h : AnswersOrDefault path result) : Answers path result := by
  rcases h with hok | ⟨error, herror, hdocumented, -⟩
  · exact .inl hok
  · exact .inr ⟨error, herror, hdocumented⟩

theorem answersOrDefault_iff :
    AnswersOrDefault path (loadOrDefault path host) ↔ Legible path host := by
  constructor
  · intro h
    by_contra hno
    obtain ⟨error, herror, hunreported⟩ := loadOrDefault_of_not_legible hno
    exact not_answers herror hunreported h.answers
  · exact loadOrDefault_of_legible

end Config

namespace Command

open Config

variable {path : Path} {host : Host} {given : Option Path} {env : Environment}
  {details : String} {console : Console}

/-- The settings in a table with their source below, or one line about an error. -/
def Display.Shows (display : Display) (details : String) (path : Path) (host : Host) : Prop :=
  (∃ config there, loadOrDefault path host = .ok config ∧ host.present path.text = .ok there ∧
      display = ⟨0, [.table .out (configTable config), sourceLine path there], none⟩) ∨
    ∃ error, loadOrDefault path host = .error error ∧ Documented path error ∧
      display = ⟨1, [.error (error.messageWith details)], none⟩

/-- An error that the command does not handle and no output, or an error in the markup of its
output. -/
def Display.Escapes (display : Display) : Prop :=
  (∃ error, error.isReported = false ∧ display = ⟨1, [], some (.config error)⟩) ∨
    ∃ complaint printed, display = ⟨1, printed, some (.markup complaint)⟩

theorem Display.not_shows_of_escapes {display : Display} (h : display.Escapes) :
    ¬display.Shows details path host := by
  rintro (⟨config, there, -, -, rfl⟩ | ⟨error, -, -, rfl⟩) <;>
    rcases h with ⟨other, -, h⟩ | ⟨complaint, printed, h⟩ <;> cases h

def foundTexts (details : String) (path : Path) (host : Host) : List String :=
  match loadOrDefault path host with
  | .ok config => [config.threadName, path.text]
  | .error error => [error.messageWith details]

/-- The settings can be shown if no tag begins in the name of the thread or in the path. -/
theorem takes_settings {config : Config} (hname : Markup.untagged config.threadName = true)
    (hpath : Markup.untagged path.text = true) (there : Bool) :
    console.Takes [.table .out (configTable config), sourceLine path there] := by
  have hstrategy : ∀ b : Builtin, Markup.untagged b.name = true := by
    intro b
    cases b <;> decide
  refine Console.takes_cons.mpr
    ⟨Console.refusal?_table (console.plain "Tracker Configuration" (by decide)) ?_ ?_, ?_⟩
  · simp only [configTable, List.forall_mem_cons]
    exact ⟨console.plain _ (by decide), console.plain _ (by decide), List.forall_mem_nil _⟩
  · simp only [configTable, List.forall_mem_cons]
    exact ⟨⟨console.plain _ (by decide), console.plain _ hname, List.forall_mem_nil _⟩,
      ⟨console.plain _ (by decide), console.plain _ (hstrategy config.defaultStrategy),
        List.forall_mem_nil _⟩, List.forall_mem_nil _⟩
  · have hsource : Markup.untagged
        ("Source: " ++ (if there then path.text else "defaults (no config file)")) = true := by
      refine Markup.untagged_append (by decide) ?_ (.inl (by simp))
      split
      · exact hpath
      · decide
    have htagged := console.complaint?_tagged "dim" _ true (by decide) (by simp) hsource
    rw [Console.takes_singleton, sourceLine, Console.refusal?_line]
    simpa [Markup.wrap, ← String.append_assoc] using htagged

theorem display_of_legible (hpath : pathOr given env = .ok path) (h : Legible path host)
    (takes : console.Takes (showConfigWith details given env host).output) :
    ((showConfigWith details given env host).display console).Shows details path host := by
  rw [(prints_display console _).taken takes]
  obtain ⟨there, hthere⟩ := h.inspected
  unfold showConfigWith Display.Shows
  rw [hpath]
  rcases loadOrDefault_of_legible h with ⟨config, hok⟩ | ⟨error, herror, hdocumented, -⟩
  · simp only [hok, hthere]
    exact .inl ⟨config, there, rfl, rfl, rfl⟩
  · simp only [herror, Ending.ofError, hdocumented.isReported, if_true]
    exact .inr ⟨error, rfl, hdocumented, rfl⟩

/-- There is no path to look at where none is given and there is no home directory. -/
theorem showConfigWith_of_not_legible (details : String)
    (h : ¬∃ p, pathOr given env = .ok p ∧ Legible p host) :
    ∃ error, error.isReported = false ∧ showConfigWith details given env host = .escape error := by
  unfold showConfigWith
  cases hpath : pathOr given env with
  | error error =>
      have hhome : error = .noHome := by
        unfold pathOr at hpath
        split at hpath
        · cases hpath
        · split at hpath <;> cases hpath
          rfl
      exact ⟨error, by rw [hhome]; rfl, rfl⟩
  | ok path =>
      obtain ⟨error, herror, hunreported⟩ :=
        loadOrDefault_of_not_legible fun hlegible => h ⟨path, hpath, hlegible⟩
      exact ⟨error, hunreported, by simp [herror, Ending.ofError, hunreported]⟩

theorem escapes_of_not_takes
    (h : ¬console.Takes (showConfigWith details given env host).output) :
    ((showConfigWith details given env host).display console).Escapes := by
  obtain ⟨complaint, printed, -, hdisplay⟩ := (prints_display console _).refused h
  exact .inr ⟨complaint, printed, hdisplay⟩

theorem takes_of_untagged
    (h : ∀ p, pathOr given env = .ok p → ∀ text ∈ foundTexts details p host,
      Markup.untagged text = true) :
    console.Takes (showConfigWith details given env host).output := by
  unfold showConfigWith
  split
  · exact List.forall_mem_nil _
  · rename_i path hpath
    have hfound := h path hpath
    unfold foundTexts at hfound
    split
    · rename_i error herror
      rw [herror] at hfound
      unfold Ending.ofError
      split
      · exact Console.takes_singleton.mpr (Console.refusal?_error (hfound _ (by simp)))
      · exact List.forall_mem_nil _
    · rename_i config hok
      rw [hok] at hfound
      split
      · exact List.forall_mem_nil _
      · exact takes_settings (hfound _ (by simp)) (hfound _ (by simp)) _

/-- Loading gives settings or one of their errors exactly if the file is legible, with or without
defaults. The command shows the settings or one of their errors exactly if there is a legible path
to look at and the console can show what is found there, and ends with another error if not. It can,
unless there are tags in what is found. -/
theorem loading_fails_as_documented (path : Path) (given : Option Path) (env : Environment)
    (host : Host) :
    (Answers path (load path host) ↔ Legible path host) ∧
      (AnswersOrDefault path (loadOrDefault path host) ↔ Legible path host) ∧
      ∀ console details,
        let ending := showConfigWith details given env host
        ((∃ p, pathOr given env = .ok p ∧ (ending.display console).Shows details p host) ↔
          (∃ p, pathOr given env = .ok p ∧ Legible p host) ∧ console.Takes ending.output) ∧
        ((ending.display console).Escapes ↔
          ¬((∃ p, pathOr given env = .ok p ∧ Legible p host) ∧ console.Takes ending.output)) ∧
        ((∀ p, pathOr given env = .ok p → ∀ text ∈ foundTexts details p host,
          Markup.untagged text = true) → console.Takes ending.output) := by
  refine ⟨answers_load_iff, answersOrDefault_iff, ?_⟩
  intro console details ending
  have hescapes : ¬((∃ p, pathOr given env = .ok p ∧ Legible p host) ∧
      console.Takes ending.output) → (ending.display console).Escapes := by
    intro hno
    by_cases htakes : console.Takes ending.output
    · obtain ⟨error, hunreported, hending⟩ :=
        showConfigWith_of_not_legible details fun hlegible => hno ⟨hlegible, htakes⟩
      refine .inl ⟨error, hunreported, ?_⟩
      rw [(prints_display console ending).taken htakes]
      simp only [ending, hending, Ending.escape, Option.map_some]
    · exact escapes_of_not_takes htakes
  refine ⟨⟨?_, ?_⟩, ⟨?_, hescapes⟩, takes_of_untagged⟩
  · rintro ⟨p, hpath, hshows⟩
    by_contra hno
    exact Display.not_shows_of_escapes (hescapes hno) hshows
  · rintro ⟨⟨p, hpath, hlegible⟩, htakes⟩
    exact ⟨p, hpath, display_of_legible hpath hlegible htakes⟩
  · rintro h ⟨⟨p, hpath, hlegible⟩, htakes⟩
    exact Display.not_shows_of_escapes h (display_of_legible hpath hlegible htakes)

def directoryAtPath : Host :=
  { Host.bare with tree := Tree.empty.put ["c.toml"] .directory }

theorem loading_fails_as_documented_directory :
    let display :=
      (showConfig (some (.ofText "c.toml")) ⟨"/home", none⟩ directoryAtPath).display .strict
    display.Shows "" (.ofText "c.toml") directoryAtPath ∧
      display.printed =
        [.error (ConfigError.message (.unreadable (.ofReason .isDirectory ["c.toml"])))] := by
  intro display
  have hlegible : Legible (.ofText "c.toml") directoryAtPath := by
    have hpresent : directoryAtPath.present "c.toml" = .ok true := rfl
    refine legible_of_present hpresent fun content _ hread => ?_
    cases hread
  have h := (loading_fails_as_documented (.ofText "c.toml") (some (.ofText "c.toml"))
    ⟨"/home", none⟩ directoryAtPath).2.2 .strict ""
  have takes := h.2.2 fun p hpath => by
    obtain rfl : .ofText "c.toml" = p := Except.ok.inj hpath
    decide +kernel
  obtain ⟨p, hpath, hshows⟩ := h.1.mpr ⟨⟨_, rfl, hlegible⟩, takes⟩
  obtain rfl : .ofText "c.toml" = p := Except.ok.inj hpath
  exact ⟨hshows, by decide +kernel⟩

def taggedName : Host :=
  { Host.bare with
    tree := Tree.empty.put ["c.toml"] (.file "thread_name = \"[/x]\"".toUTF8) }

example : (showConfig (some (.ofText "c.toml")) ⟨"/home", none⟩ taggedName).display .strict =
    ⟨1, [], some (.markup "nothing to close")⟩ := by decide +kernel

def strayByte : Host :=
  { Host.bare with tree := Tree.empty.put ["c.toml"] (.file ⟨#[0xff]⟩) }

/-- A content that is no text ends loading with an error that is none of the settings, and the
command without any output. -/
theorem stray_byte_escapes :
    load (.ofText "c.toml") strayByte = .error .notText ∧
      loadOrDefault (.ofText "c.toml") strayByte = .error .notText ∧
      ¬Answers (.ofText "c.toml") (load (.ofText "c.toml") strayByte) ∧
      (showConfig (some (.ofText "c.toml")) ⟨"/home", none⟩ strayByte).display .strict =
        ⟨1, [], some (.config .notText)⟩ :=
  ⟨rfl, rfl, not_answers rfl rfl, rfl⟩

end Command
end Reclaim
