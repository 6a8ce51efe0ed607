import Reclaim.Path.Basic

/-!
The arguments of the command line. Options before the name of a command belong to the program,
those after it to the command. Short flags may be joined, and the value of a short option may be
attached to it; a long option takes its value after an equals sign or from the next argument.
Within a command, options and other arguments may be mixed, and two dashes end the options.
-/

namespace Reclaim.Command

inductive Flag
  | help
  | version
  | verbose
  | force
  | dryRun
  | config
deriving DecidableEq, Repr

structure Form where
  flag : Flag
  short : Option Char
  long : String
  takesValue : Bool
deriving DecidableEq, Repr

abbrev Given := Flag × Option String

def helpForm : Form := ⟨.help, some 'h', "--help", false⟩

def forceForm : Form := ⟨.force, some 'f', "--force", false⟩

def configForm : Form := ⟨.config, some 'c', "--config", true⟩

def programForms : List Form :=
  [⟨.version, some 'V', "--version", false⟩, ⟨.verbose, some 'v', "--verbose", false⟩, helpForm]

def deleteForms : List Form :=
  [forceForm, ⟨.dryRun, none, "--dry-run", false⟩, helpForm]

def groupForms : List Form := [helpForm]

def showForms : List Form := [configForm, helpForm]

def initForms : List Form := [configForm, forceForm, helpForm]

inductive Reading
  | plain
  | options (given : List Given)
  -- options of which the last takes its value from the next argument
  | wants (given : List Given) (flag : Flag)
  | unknown

def readShort (forms : List Form) : List Char → Reading
  | [] => .options []
  | c :: cs =>
      match forms.find? (·.short = some c) with
      | none => .unknown
      | some form =>
          if form.takesValue then
            if cs.isEmpty then .wants [] form.flag
            else .options [(form.flag, some (String.ofList cs))]
          else match readShort forms cs with
            | .options given => .options ((form.flag, none) :: given)
            | .wants given flag => .wants ((form.flag, none) :: given) flag
            | other => other

def readLong (forms : List Form) (cs : List Char) : Reading :=
  let name := cs.takeWhile (· ≠ '=')
  match forms.find? (·.long.toList = name) with
  | none => .unknown
  | some form =>
      match form.takesValue, cs.dropWhile (· ≠ '=') with
      | true, [] => .wants [] form.flag
      | true, _ :: value => .options [(form.flag, some (String.ofList value))]
      | false, [] => .options [(form.flag, none)]
      | false, _ => .unknown

def readArgument (forms : List Form) (argument : String) : Reading :=
  match argument.toList with
  | '-' :: '-' :: cs => readLong forms ('-' :: '-' :: cs)
  | '-' :: c :: cs => readShort forms (c :: cs)
  | _ => .plain

/-- Separates the options from the other arguments. Unless they may be mixed, the first other
argument ends the options. There is no answer if an option is not known or lacks its value. -/
def separate (forms : List Form) (mixed : Bool) :
    List String → Option (List Given × List String)
  | [] => some ([], [])
  | argument :: rest =>
      if argument = "--" then some ([], rest)
      else match readArgument forms argument with
        | .unknown => none
        | .options given =>
            (separate forms mixed rest).map fun (more, others) => (given ++ more, others)
        | .wants given flag =>
            match rest with
            | [] => none
            | value :: rest =>
                (separate forms mixed rest).map fun (more, others) =>
                  (given ++ (flag, some value) :: more, others)
        | .plain =>
            if mixed then
              (separate forms mixed rest).map fun (given, others) => (given, argument :: others)
            else some ([], argument :: rest)

def isGiven (given : List Given) (flag : Flag) : Bool :=
  given.any (·.1 = flag)

def valueOf? (given : List Given) (flag : Flag) : Option String :=
  ((given.filter (·.1 = flag)).getLast?).bind (·.2)

inductive Request
  | help
  | version
  -- the arguments are not understood
  | misuse
  -- a group of commands is named, but no command
  | nothing
  | delete (paths : List Path) (force dryRun : Bool)
  | showConfig (path : Option Path)
  | initConfig (path : Option Path) (force : Bool)
deriving DecidableEq, Repr

/-- A request, and whether logging is turned on before it is met. -/
structure CommandLine where
  verbose : Bool
  request : Request
deriving DecidableEq, Repr

def readPath? (argument : String) : Option Path :=
  if argument.toList.contains '\x00' then none else some (.ofText argument)

def readConfigPath? (given : List Given) : Option (Option Path) :=
  match valueOf? given .config with
  | none => some none
  | some argument => (readPath? argument).map some

def readDelete (arguments : List String) : Request :=
  match separate deleteForms true arguments with
  | none => .misuse
  | some (given, others) =>
      if isGiven given .help then .help
      else match others.mapM readPath? with
        | none => .misuse
        | some [] => .misuse
        | some paths => .delete paths (isGiven given .force) (isGiven given .dryRun)

def readShow (arguments : List String) : Request :=
  match separate showForms true arguments with
  | none => .misuse
  | some (given, others) =>
      if isGiven given .help then .help
      else match readConfigPath? given, others with
        | some path, [] => .showConfig path
        | _, _ => .misuse

def readInit (arguments : List String) : Request :=
  match separate initForms true arguments with
  | none => .misuse
  | some (given, others) =>
      if isGiven given .help then .help
      else match readConfigPath? given, others with
        | some path, [] => .initConfig path (isGiven given .force)
        | _, _ => .misuse

def readGroup (arguments : List String) : Request :=
  if arguments = [] then .misuse
  else match separate groupForms false arguments with
    | none => .misuse
    | some (given, others) =>
        if isGiven given .help then .help
        else match others with
          | [] => .nothing
          | "show" :: rest => readShow rest
          | "init" :: rest => readInit rest
          | _ => .misuse

/-- Reads all arguments. Help and version are answered in the order in which they are given and
before anything else; logging is turned on once the name of a command is known. -/
def readArguments (arguments : List String) : CommandLine :=
  match separate programForms false arguments with
  | none => ⟨false, .misuse⟩
  | some (given, others) =>
      match given.find? (fun g => g.1 = .help ∨ g.1 = .version) with
      | some (.version, _) => ⟨false, .version⟩
      | some _ => ⟨false, .help⟩
      | none =>
          let verbose := isGiven given .verbose
          match others with
          | "delete" :: rest => ⟨verbose, readDelete rest⟩
          | "config" :: rest => ⟨verbose, readGroup rest⟩
          | _ => ⟨false, .misuse⟩

end Reclaim.Command
