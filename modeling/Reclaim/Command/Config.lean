import Reclaim.Config.Store
import Reclaim.Console

/-!
The commands that show and write the settings. Errors of the settings are printed and give exit
code one; other errors end the command.
-/

namespace Reclaim.Command

open Files

/-- How a command ends as far as it depends on itself: with an exit code, something to be printed, and
perhaps an error that it does not handle. -/
structure Ending where
  exit : Nat
  output : List Output
  escaped : Option ConfigError

def Ending.escape (error : ConfigError) : Ending :=
  ⟨1, [], some error⟩

def Ending.ofError (details : String) (error : ConfigError) : Ending :=
  if error.isReported then ⟨1, [.error (error.messageWith details)], none⟩ else .escape error

def configTable (config : Config) : Table where
  title := "Tracker Configuration"
  columns := [⟨"Setting", none, .left, false, "bold"⟩, ⟨"Value", none, .left, false, ""⟩]
  rows := [[Config.threadNameKey, config.threadName],
    [Config.strategyKey, config.defaultStrategy.name]]

def sourceLine (path : Path) (there : Bool) : Output :=
  .line .out ("[dim]Source: " ++ (if there then path.text else "defaults (no config file)")
    ++ "[/dim]")

/-- Shows the settings that are in force and where they come from, or an error with its details. -/
def showConfigWith (details : String) (path : Option Path) (env : Environment) (host : Host) :
    Ending :=
  match Config.pathOr path env with
  | .error error => .escape error
  | .ok path =>
      match Config.loadOrDefault path host with
      | .error error => .ofError details error
      | .ok config =>
          match host.present path.text with
          | .error error => .escape (.uninspected error)
          | .ok there => ⟨0, [.table .out (configTable config), sourceLine path there], none⟩

def showConfig (path : Option Path) (env : Environment) (host : Host) : Ending :=
  showConfigWith "" path env host

/-- Writes the default settings; what is there is replaced only by force. -/
def initConfig (path : Option Path) (force : Bool) (env : Environment) (host : Host) :
    Ending × Host :=
  match Config.pathOr path env with
  | .error error => (.escape error, host)
  | .ok path =>
      match host.present path.text with
      | .error error => (.escape (.uninspected error), host)
      | .ok there =>
          if there && !force then
            (⟨1, [.info ("Config already exists: " ++ path.text ++ " (use --force to overwrite)")],
              none⟩, host)
          else match Config.default.save path host with
            | (.ok (), host) =>
                (⟨0, [.success ("Wrote default config to " ++ path.text)], none⟩, host)
            | (.error error, host) => (.ofError "" error, host)

end Reclaim.Command
