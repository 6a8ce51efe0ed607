import Reclaim.Config.Basic
import Reclaim.Home
import Reclaim.Host.Directories
import Reclaim.Host.Temporary
import Reclaim.Toml.Reader
import Reclaim.Toml.Writer

/-!
Settings on file. Loading reads a TOML document and checks its table; a file that is missing is
an error of its own. Saving writes a temporary file beside the target and moves it into place;
if that fails the temporary file is removed and the failure is reported.
-/

namespace Reclaim

open Files

def Fields.ofTable (table : Toml.Table) : Fields :=
  table.map fun e => (e.1, e.2.text?)

inductive ConfigError
  | missing (path : String)
  | malformed
  | invalid (issues : List Issue)
  | unreadable (error : OsError)
  | unwritable (error : OsError)
  -- the file could not be inspected
  | uninspected (error : OsError)
  | notText
  | hugeInteger
  | embeddedNul
  | noHome
deriving DecidableEq, Repr

namespace ConfigError

/-- Whether an error is reported as one of the settings; the others are passed on as they are. -/
def isReported : ConfigError → Bool
  | missing _ | malformed | invalid _ | unreadable _ | unwritable _ => true
  | _ => false

def malformedMessage : String := "Invalid TOML syntax"

def invalidMessage : String := "Invalid tracker config content"

/-- The wording, without the details of the two errors about content. -/
def message : ConfigError → String
  | missing path => "Tracker config not found: " ++ path
  | malformed => malformedMessage
  | invalid _ => invalidMessage
  | unreadable error => "Failed to read tracker config: " ++ error.message
  | unwritable error => "Failed to write tracker config: " ++ error.message
  | uninspected error => error.message
  | notText => ""
  | hugeInteger => ""
  | embeddedNul => ""
  | noHome => ""

/-- The wording with what the parser or the check of a table has to add. -/
def messageWith (details : String) : ConfigError → String
  | malformed => malformedMessage ++ details
  | invalid _ => invalidMessage ++ details
  | error => error.message

@[simp] theorem messageWith_empty (error : ConfigError) : error.messageWith "" = error.message := by
  cases error <;> rfl

end ConfigError

namespace Config

def ofBytes (content : ByteArray) : Except ConfigError Config :=
  match String.fromUTF8? content with
  | none => .error .notText
  | some text =>
      match Toml.read text with
      | .error .malformed => .error .malformed
      | .error .hugeInteger => .error .hugeInteger
      | .ok table =>
          match ofFields (.ofTable table) with
          | .ok config => .ok config
          | .error issues => .error (.invalid issues)

def load (path : Path) (host : Host) : Except ConfigError Config :=
  match host.present path.text with
  | .error error => .error (.uninspected error)
  | .ok false => .error (.missing path.text)
  | .ok true =>
      match host.read path.text with
      | .ok content => ofBytes content
      | .error (.os error) => .error (.unreadable error)
      | .error .embeddedNul => .error .embeddedNul

def loadOrDefault (path : Path) (host : Host) : Except ConfigError Config :=
  match load path host with
  | .error (.missing _) => .ok default
  | loaded => loaded

def text (config : Config) : String :=
  String.ofList (Toml.writeLine threadNameKey config.threadName
    ++ Toml.writeLine strategyKey config.defaultStrategy.name)

/-- Removes what is left of a failed attempt and reports the failure, unless the removal itself
fails. -/
def cleanUp (temporary : Option String) (error : OsError) (host : Host) : ConfigError × Host :=
  match temporary with
  | none => (.unwritable error, host)
  | some text =>
      match host.present text with
      | .error other => (.uninspected other, host)
      | .ok false => (.unwritable error, host)
      | .ok true =>
          match host.unlink text with
          | .ok host => (.unwritable error, host)
          | .error (.os other) => (.uninspected other, host)
          | .error .embeddedNul => (.embeddedNul, host)

def saveFailed (temporary : Option String) (failure : Failure) (host : Host) :
    Except ConfigError Unit × Host :=
  match failure with
  | .embeddedNul => (.error .embeddedNul, host)
  | .os error =>
      let (error, host) := cleanUp temporary error host
      (.error error, host)

def save (config : Config) (path : Path) (host : Host) : Except ConfigError Unit × Host :=
  match host.ensureDirectories path.parent with
  | (.error failure, host) => saveFailed none failure host
  | (.ok (), host) =>
      match host.makeTemporary .file ⟨some path.parent.text, "tmp", ".tmp"⟩ with
      | (.error failure, host) => saveFailed none failure host
      | (.ok temporary, host) =>
          match host.write temporary config.text.toUTF8 with
          | .error failure => saveFailed (some temporary) failure host
          | .ok host =>
              match host.replace temporary path.text with
              | .ok host => (.ok (), host)
              | .error failure => saveFailed (some temporary) failure host

def pathOr (path : Option Path) (env : Environment) : Except ConfigError Path :=
  match path with
  | some path => .ok path
  | none =>
      match env.trackerConfigPath? with
      | some path => .ok path
      | none => .error .noHome

end Config
end Reclaim
