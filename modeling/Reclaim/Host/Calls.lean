import Reclaim.Host.Basic

/-!
The calls on files, each with the order of its errors: a fault first, then a NUL in the path,
then what the tree answers. The three tests answer no for a path that leads nowhere and for one
that holds a NUL, and pass other errors on. Changes answer the changed host.
-/

namespace Reclaim.Host

open Files

def inspect (host : Host) (followLast : Bool) (text : String) : Except Failure Entry :=
  if holdsNul text then .error .embeddedNul
  else match host.tree.resolve host.cwd followLast text with
    | .ok place => .ok (host.tree.reached place)
    | .error reason => .error (.os (.ofReason reason [text]))

/-- Answers no instead of an error by which the path is known to lead nowhere. -/
def answer (test : Entry → Bool) : Except Failure Entry → Except OsError Bool
  | .ok entry => .ok (test entry)
  | .error .embeddedNul => .ok false
  | .error (.os error) => if error.isAbsence then .ok false else .error error

def query (host : Host) (call : Call) (followLast : Bool) (test : Entry → Bool) (text : String) :
    Except OsError Bool :=
  match host.fault? call text with
  | some error => .error error
  | none => answer test (host.inspect followLast text)

/-- Whether a path leads to an entry, links followed. -/
def present (host : Host) (text : String) : Except OsError Bool :=
  host.query .presence true (fun _ => true) text

/-- Whether the entry that a path names is itself a link. -/
def isLink (host : Host) (text : String) : Except OsError Bool :=
  host.query .linkTest false (fun e => e matches .link _) text

/-- Whether a path leads to a directory, links followed. -/
def isDirectory (host : Host) (text : String) : Except OsError Bool :=
  host.query .directoryTest true (fun e => e matches .directory) text

/-- A change of the tree, refused on paths with a NUL. -/
def change (host : Host) (paths : List String) (step : Tree → Place → Except Reason Tree) :
    Except Failure Host :=
  if paths.any holdsNul then .error .embeddedNul
  else match step host.tree host.cwd with
    | .ok tree => .ok (host.withTree tree)
    | .error reason => .error (.os (.ofReason reason paths))

/-- A call that meets its fault, if there is one, instead of being made. -/
def guarded {α : Type} (host : Host) (call : Call) (text : String) (made : Except Failure α) :
    Except Failure α :=
  match host.fault? call text with
  | some error => .error (.os error)
  | none => made

def unlinkNow (host : Host) (text : String) : Except Failure Host :=
  host.change [text] fun tree cwd => tree.unlink cwd text

def rmdirNow (host : Host) (text : String) : Except Failure Host :=
  host.change [text] fun tree cwd => tree.rmdir cwd text

def unlink (host : Host) (text : String) : Except Failure Host :=
  host.guarded .unlink text (host.unlinkNow text)

def rmdir (host : Host) (text : String) : Except Failure Host :=
  host.guarded .rmdir text (host.rmdirNow text)

def breakOff (host : Host) (text : String) (breakdown : Breakdown) : Except Failure Unit × Host :=
  match host.tree.resolve host.cwd false text with
  | .error reason => (.error (.os (.ofReason reason [text])), host)
  | .ok place =>
      match host.tree.reached place with
      | .directory =>
          (.error (.os breakdown.error),
            host.withTree (host.tree.eraseBelowBut place breakdown.spared))
      | _ => (.error (.os (.ofReason .notDirectory [text])), host)

/-- Removes a directory with all that lies inside it; what was removed before an error stays
removed. -/
def removeAll (host : Host) (text : String) : Except Failure Unit × Host :=
  match host.fault? .removeAll text with
  | some error => (.error (.os error), host)
  | none =>
      if holdsNul text then (.error .embeddedNul, host)
      else match host.breakdown? text with
        | some breakdown => host.breakOff text breakdown
        | none =>
            match host.tree.removeAll host.cwd text with
            | (.ok (), tree) => (.ok (), host.withTree tree)
            | (.error reason, tree) =>
                (.error (.os (.ofReason reason [text])), host.withTree tree)

def mkdirNow (host : Host) (text : String) : Except Failure Host :=
  host.change [text] fun tree cwd => tree.mkdir cwd text

def mkdir (host : Host) (text : String) : Except Failure Host :=
  host.guarded .mkdir text (host.mkdirNow text)

def create (host : Host) (text : String) : Except Failure Host :=
  host.change [text] fun tree cwd => tree.create cwd text

def symlink (host : Host) (target text : String) : Except Failure Host :=
  host.change [target, text] fun tree cwd => tree.symlink cwd target text

def write (host : Host) (text : String) (content : ByteArray) : Except Failure Host :=
  host.change [text] fun tree cwd => tree.write cwd text content

def replace (host : Host) (source target : String) : Except Failure Host :=
  host.guarded .replace source <|
    host.change [source, target] fun tree cwd => tree.replace cwd source target

def readNow (host : Host) (text : String) : Except Failure ByteArray :=
  if holdsNul text then .error .embeddedNul
  else match host.tree.read host.cwd text with
    | .ok content => .ok content
    | .error reason => .error (.os (.ofReason reason [text]))

def read (host : Host) (text : String) : Except Failure ByteArray :=
  host.guarded .read text (host.readNow text)

end Reclaim.Host
