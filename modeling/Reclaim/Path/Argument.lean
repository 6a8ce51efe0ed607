import Reclaim.Error
import Reclaim.Path.Absolute

/-!
What callers hand over where a path is expected. A text is taken as it stands; an object that
stands for a path is made absolute before it is stored, so that it keeps its meaning when the
current directory changes.
-/

namespace Reclaim

inductive PathArgument
  | text (s : String)
  | path (p : Path)
  -- an object that answers the given text when asked for its path
  | pathLike (s : String)
  -- an object that answers bytes when asked for its path
  | bytesLike
  -- an object that has no path to answer with
  | brokenLike
  | absent
  -- a value of another type, named here
  | other (type : String)
deriving DecidableEq, Repr

inductive PathError
  | absent
  | empty
  | bytes
  | broken
  | notPath (type : String)
  -- the current directory, needed to make the path absolute, is gone
  | directoryLost
deriving DecidableEq, Repr

namespace PathArgument

def shown : PathArgument → String
  | text s => s
  | path p => p.text
  | pathLike s => "PathLike(" ++ s ++ ")"
  | absent => "None"
  | bytesLike => "bytes"
  | brokenLike => "object"
  | other type => type

def toPath? : PathArgument → Option Path
  | text s => some (.ofText s)
  | path p => some p
  | pathLike s => some (.ofText s)
  | _ => none

/-- The absolute form, which needs the current directory only for a relative path. -/
def absoluteFrom (cwd : Option Path) (p : Path) : Except PathError String :=
  if p.isAbsolute then .ok p.lexical.text
  else match cwd with
    | some directory => .ok (directory.absolute p).text
    | none => .error .directoryLost

def stored (cwd : Option Path) : PathArgument → Except PathError String
  | text s => if s = "" then .error .empty else .ok s
  | path p => absoluteFrom cwd p
  | pathLike s => absoluteFrom cwd (.ofText s)
  | bytesLike => .error .bytes
  | brokenLike => .error .broken
  | absent => .error .absent
  | other type => .error (.notPath type)

end PathArgument

namespace PathError

def message : PathError → String
  | absent => "path must not be None"
  | empty => "path must not be empty"
  | bytes => "path must be a str path, got bytes"
  | broken => ""
  | notPath type => "path must be str or os.PathLike, got " ++ type
  | directoryLost => "[Errno 2] No such file or directory"

def kind : PathError → ErrorKind
  | absent | empty => .value
  | bytes | broken | notPath _ => .type
  | directoryLost => .system

end PathError
end Reclaim
