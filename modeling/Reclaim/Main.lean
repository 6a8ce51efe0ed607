import Reclaim.Command.Run

/-!
The program. It looks at the files that a request is about, runs the command on what it has seen,
and makes the changes that the command has made. An error met in doing so becomes a fault with
which the command is run again, so that it is reported like any other error.
-/

namespace Reclaim.Program

open Files Command

def placeOf (text : String) : Place :=
  (Path.ofText text).parts.reverse

def addDirectories (tree : Tree) : Place → Tree
  | [] => tree
  | name :: around => (addDirectories tree around).put (name :: around) .directory

/-- The entry at a place. A link is taken to lead straight to where it ends; one that leads
nowhere is taken to lead to itself. The contents of files are read only on demand. -/
def look (contents : Bool) (place : Place) : IO (Option Entry) := do
  let text := Host.textOf place
  try
    match (← ((← IO.currentDir) / text).symlinkMetadata).type with
    | .dir => return some .directory
    | .symlink =>
        let target ← try pure (← IO.FS.realPath text).toString catch _ => pure text
        return some (.link target)
    | _ =>
        let content ← if contents then
            try IO.FS.readBinFile text catch _ => pure .empty
          else pure .empty
        return some (.file content)
  catch _ => return none

def addEntry (contents : Bool) (tree : Tree) (place : Place) : IO Tree := do
  match ← look contents place with
  | none => return tree
  | some (.link target) =>
      let tree := (addDirectories tree place.tail).put place (.link target)
      let there := placeOf target
      match ← look contents there with
      | some (.link _) | none => return tree
      | some entry => return (addDirectories tree there.tail).put there entry
  | some entry => return (addDirectories tree place.tail).put place entry

def addContents : Nat → Place → Tree → IO Tree
  | 0, _, tree => return tree
  | depth + 1, place, tree => do
      let entries ← ((← IO.currentDir) / Host.textOf place).readDir
      entries.foldlM (fun tree e => do
        let inner := e.fileName :: place
        let tree ← addEntry false tree inner
        if tree.get? inner = some .directory then addContents depth inner tree
        else return tree) tree

def addPath (contents : Bool) (tree : Tree) (path : Path) : IO Tree := do
  let lengths := List.range path.parts.length
  lengths.foldlM (fun tree n => do
    let part := path.parts.getD n ""
    if part = ".." then return tree
    try
      let around := Path.text ⟨path.anchor, path.parts.take n⟩
      let place := part :: placeOf (← IO.FS.realPath around).toString
      let tree ← addEntry contents tree place
      if n + 1 = path.parts.length ∧ tree.get? place = some .directory then
        addContents pathSizeLimit place tree
      else return tree
    catch _ => return tree) tree

def readFault? (tree : Tree) (cwd : Place) (path : Path) : IO (Option Fault) := do
  match tree.read cwd path.text with
  | .error _ => return none
  | .ok _ =>
      try
        let _ ← IO.FS.readBinFile path.text
        return none
      catch error => return some ⟨.read, .whole path.text, .plain (toString error)⟩

/-- The state of the host as far as it matters for some paths. -/
def snapshot (contents : Bool) (paths : List Path) : IO Host := do
  let cwd := placeOf (← IO.FS.realPath ".").toString
  let tree ← paths.foldlM (addPath contents) (addDirectories .empty cwd)
  let faults ← if contents then paths.filterMapM (readFault? tree cwd) else pure []
  return { tree := tree, cwd := cwd, temporary := "/tmp", nextName := 1, faults := faults }

def carryOut (before after : Tree) : IO Unit := do
  let deepFirst := before.entries.mergeSort fun a b => b.1.length ≤ a.1.length
  for (place, entry) in deepFirst do
    if after.get? place ≠ some entry then
      if entry = .directory then IO.FS.removeDir (Host.textOf place)
      else IO.FS.removeFile (Host.textOf place)
  for (place, entry) in deepFirst.reverse ++ after.entries.reverse do
    if before.get? place ≠ after.get? place ∧ after.get? place = some entry then
      match entry with
      | .directory => IO.FS.createDir (Host.textOf place)
      | .file content => IO.FS.writeBinFile (Host.textOf place) content
      | .link _ => pure ()

/-- Faults by which every change fails with an error. -/
def faultsOf (error : IO.Error) : List Fault :=
  [Call.unlink, .rmdir, .removeAll, .mkdir, .replace, .makeTemporary].map fun call =>
    ⟨call, .everywhere, .plain (toString error)⟩

def attempt {α : Type} (contents : Bool) (paths : List Path) (run : Host → α × Host) : IO α := do
  let host ← snapshot contents paths
  let (answer, after) := run host
  try
    carryOut host.tree after.tree
    return answer
  catch error => return (run { host with faults := faultsOf error }).1

/-- A text without its markup, which stands in brackets and begins with a letter or a slash. -/
def plain : Bool → List Char → List Char
  | _, [] => []
  | true, c :: cs => plain (c ≠ ']') cs
  | false, '[' :: c :: cs =>
      if c.isLower || c = '/' then plain true (c :: cs) else '[' :: plain false (c :: cs)
  | false, c :: cs => c :: plain false cs

def render (text : String) : String :=
  String.ofList (plain false text.toList)

def printOutput : Output → IO Unit
  | .line .out text => IO.println (render text)
  | .line .err text => IO.eprintln (render text)
  | .table _ table => do
      IO.println table.title
      for row in table.columns.map (·.header) :: table.rows do
        IO.println ("  ".intercalate (row.map render))
  | .logging _ _ => pure ()

def usage : String :=
  "usage: reclaim [-v] delete [-f] [--dry-run] PATH...\n"
    ++ "       reclaim [-v] config show [-c PATH]\n"
    ++ "       reclaim [-v] config init [-c PATH] [-f]"

/-- Meets a request. Paths are deleted one by one, so that an error met at one of them does not
keep the others from being deleted. -/
def meetRequest (request : Request) (env : Environment) : IO Ending := do
  match request with
  | .delete paths force dryRun =>
      let rows ← paths.mapM fun path =>
        attempt false [path] (deletePath (strategyOf force) dryRun path)
      return ⟨exitCode rows, report dryRun rows, none⟩
  | .showConfig path | .initConfig path _ =>
      attempt true ((path <|> env.trackerConfigPath?).toList) (meet request env)
  | .help | .misuse | .nothing =>
      IO.eprintln usage
      attempt false [] (meet request env)
  | .version => attempt false [] (meet request env)

end Reclaim.Program

open Reclaim Reclaim.Program in
def main (arguments : List String) : IO UInt32 := do
  let env : Environment := ⟨(← IO.getEnv "HOME").getD "/", ← IO.getEnv "XDG_CONFIG_HOME"⟩
  let ending ← meetRequest (Command.readArguments arguments).request env
  -- no text is too much for `render`
  let display := ending.display .tolerant
  display.printed.forM printOutput
  match display.escaped with
  | some (.config error) => IO.eprintln error.message
  | some (.markup complaint) => IO.eprintln complaint
  | none => pure ()
  return display.exit.toUInt32
