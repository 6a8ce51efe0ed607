import Reclaim.Config.Store
import Reclaim.Log
import Reclaim.Theme.Basic

/-!
Colours on file. Only the texts in the table of colours count. Whatever is wrong with the file,
its table or the colours in it, the defaults are used, and a line in the log says why.
-/

namespace Reclaim

open Files

inductive ThemeFailure
  | notText
  | hugeInteger
  | embeddedNul
  | noHome
deriving DecidableEq, Repr

inductive ThemeWarning
  | malformed (path : String)
  | unreadable (path : String) (error : OsError)
  | notTable (path : String)
  | invalid (issues : List Issue)
deriving DecidableEq, Repr

def ThemeWarning.log : ThemeWarning → LogLine
  | malformed path =>
      ⟨.warning, .theme, "Failed to parse TOML file " ++ path ++ ": ", some .malformedDocument⟩
  | unreadable path error =>
      ⟨.warning, .theme, "Failed to read theme file " ++ path ++ ": ", some (.files error)⟩
  | notTable path => ⟨.warning, .theme, "Invalid 'colors' section in " ++ path, none⟩
  | invalid _ =>
      ⟨.warning, .theme, "Theme validation failed, using defaults: ", some .invalidColours⟩

namespace Theme

/-- The texts in the table of colours; none if its place is taken by something else. -/
def coloursOf (table : Toml.Table) : Option Fields :=
  match table.get? "colors" with
  | none => some []
  | some value => value.table?.map fun entries => (Fields.ofTable entries).filter (·.2.isSome)

def loadColours (path : Path) (host : Host) :
    Except ThemeFailure (Option Fields × List ThemeWarning) :=
  match host.read path.text with
  | .error .embeddedNul => .error .embeddedNul
  | .error (.os (.numbered 2 _ _)) => .ok (none, [])
  | .error (.os error) => .ok (none, [.unreadable path.text error])
  | .ok content =>
      match String.fromUTF8? content with
      | none => .error .notText
      | some text =>
          match Toml.read text with
          | .error .malformed => .ok (none, [.malformed path.text])
          | .error .hugeInteger => .error .hugeInteger
          | .ok table =>
              match coloursOf table with
              | none => .ok (none, [.notTable path.text])
              | some colours => .ok (some colours, [])

def ofColours : Option Fields → Theme × List ThemeWarning
  | none => (default, [])
  | some [] => (default, [])
  | some colours =>
      match ofFields colours with
      | .ok theme => (theme, [])
      | .error issues => (default, [.invalid issues])

def load (path : Path) (host : Host) : Except ThemeFailure (Theme × List ThemeWarning) :=
  match loadColours path host with
  | .error failure => .error failure
  | .ok (colours, warnings) =>
      let (theme, more) := ofColours colours
      .ok (theme, warnings ++ more)

def pathOr (path : Option Path) (env : Environment) : Except ThemeFailure Path :=
  match path with
  | some path => .ok path
  | none =>
      match env.themePath? with
      | some path => .ok path
      | none => .error .noHome

end Theme
end Reclaim
