import Reclaim.Host.Calls
import Reclaim.Path.Absolute

/-!
Temporary entries. A temporary name is the next number in eight digits between a given beginning
and end; names that exist are skipped. A file is made under the absolute form of its directory,
a directory under its directory as given.
-/

namespace Reclaim

open Files

structure TemporaryName where
  directory : Option String
  before : String
  after : String
deriving DecidableEq, Repr

inductive TemporaryKind
  | file
  | directory
deriving DecidableEq, Repr

def padded (width n : Nat) : String :=
  let digits := Nat.repr n
  String.ofList (List.replicate (width - digits.length) '0') ++ digits

def joinText (directory name : String) : String :=
  if name.toList.head? = some '/' then name
  else if directory = "" ∨ directory.toList.getLast? = some '/' then directory ++ name
  else directory ++ "/" ++ name

namespace Host

def nameAttempts : Nat := 10000

def noName (kind : TemporaryKind) : Failure :=
  let wanted := match kind with
    | .file => "file"
    | .directory => "directory"
  .os (.numbered 17 ("No usable temporary " ++ wanted ++ " name found") [])

def makeNamed (kind : TemporaryKind) (host : Host) (text : String) : Except Failure Host :=
  host.guarded .makeTemporary text <|
    match kind with
    | .file => host.create text
    | .directory => host.mkdirNow text

def tryNames (kind : TemporaryKind) (base before after : String) :
    Nat → Host → Except Failure String × Host
  | 0, host => (.error (noName kind), host)
  | attempts + 1, host =>
      let text := joinText base (before ++ padded 8 host.nextName ++ after)
      let host := { host with nextName := host.nextName + 1 }
      match makeNamed kind host text with
      | .ok host => (.ok text, host)
      | .error (.os (.numbered 17 _ _)) => tryNames kind base before after attempts host
      | .error failure => (.error failure, host)

def absoluteDirectory (host : Host) (directory : String) : Except Failure String :=
  let path := Path.ofText directory
  if path.isAbsolute then .ok path.lexical.text
  else match host.currentDirectory? with
    | some cwd => .ok (cwd.absolute path).text
    | none => .error (.os (.ofReason .missing []))

def makeTemporary (host : Host) (kind : TemporaryKind) (name : TemporaryName) :
    Except Failure String × Host :=
  let directory := name.directory.getD host.temporary
  match kind with
  | .file =>
      match host.absoluteDirectory directory with
      | .error failure => (.error failure, host)
      | .ok base => tryNames .file base name.before name.after nameAttempts host
  | .directory =>
      tryNames .directory directory name.before name.after nameAttempts host

def discard (host : Host) (kind : TemporaryKind) (text : String) : Except Failure Host :=
  match kind with
  | .file => host.unlinkNow text
  | .directory => host.rmdirNow text

end Host
end Reclaim
