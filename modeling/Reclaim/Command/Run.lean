import Reclaim.Command.Arguments
import Reclaim.Command.Config
import Reclaim.Command.Delete

/-!
Running the command line: arguments and the state of the host in, console output, exit code and
the new state out. The output is printed on a console when all else has been done; what the console
cannot show ends the command with an error.
-/

namespace Reclaim.Command

def versionText : String := "filereaper version 0.1.0"

def logging : Output :=
  .logging 10 "%(asctime)s %(levelname)s %(name)s: %(message)s"

def strategyOf (force : Bool) : Strategy :=
  if force then .force else .normal

/-- Meets a request. While paths are deleted the errors in force may change from turn to turn. -/
def meetAmid (turns : Nat → Turn) (request : Request) (env : Environment) (host : Host) :
    Ending × Host :=
  match request with
  | .help => (⟨0, [], none⟩, host)
  | .version => (⟨0, [.line .out versionText], none⟩, host)
  | .misuse => (⟨2, [], none⟩, host)
  | .nothing => (⟨0, [], none⟩, host)
  | .delete paths force dryRun =>
      let (rows, host) := deletePathsAmid turns (strategyOf force) dryRun paths host
      (⟨exitCode rows, report dryRun rows, none⟩, host)
  | .showConfig path => (showConfig path env host, host)
  | .initConfig path force => initConfig path force env host

def meet (request : Request) (env : Environment) (host : Host) : Ending × Host :=
  meetAmid (fun _ => .steady host.conditions) request env host

def runAmid (turns : Nat → Turn) (arguments : List String) (env : Environment) (host : Host) :
    Ending × Host :=
  let line := readArguments arguments
  let (ending, host) := meetAmid turns line.request env host
  if line.verbose then ({ ending with output := logging :: ending.output }, host)
  else (ending, host)

def run (arguments : List String) (env : Environment) (host : Host) : Ending × Host :=
  runAmid (fun _ => .steady host.conditions) arguments env host

/-- An error that ends a command: one that it does not handle, or one in the markup of its output. -/
inductive Escape
  | config (error : ConfigError)
  | markup (complaint : String)
deriving DecidableEq, Repr

structure Display where
  exit : Nat
  printed : List Output
  escaped : Option Escape
deriving DecidableEq, Repr

def Ending.display (console : Console) (ending : Ending) : Display :=
  match console.display ending.output with
  | (printed, none) => ⟨ending.exit, printed, ending.escaped.map .config⟩
  | (printed, some complaint) => ⟨1, printed, some (.markup complaint)⟩

def showAmid (console : Console) (turns : Nat → Turn) (arguments : List String) (env : Environment)
    (host : Host) : Display × Host :=
  let (ending, host) := runAmid turns arguments env host
  (ending.display console, host)

def runOn (console : Console) (arguments : List String) (env : Environment) (host : Host) :
    Display × Host :=
  showAmid console (fun _ => .steady host.conditions) arguments env host

end Reclaim.Command
