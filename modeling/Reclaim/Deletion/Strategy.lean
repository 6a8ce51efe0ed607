import Reclaim.Host.Calls
import Reclaim.Path.Argument
import Reclaim.Text.Blank

/-!
Deletion of one path. A strategy says how an entry that exists is removed and what happens when
the removal is asked for quietly. A path that leads to no entry counts as deleted; every error
met on the way becomes a deletion error that names the path as it was given and the reason.
-/

namespace Reclaim

open Files

/-- How an entry that exists is removed: directories only if they are empty, or together with their
contents; or every removal fails with a text. -/
inductive Removal
  | single
  | recursive
  | failing (text : String)
deriving DecidableEq, Repr

/-- What a strategy does when it is asked to delete quietly. It deletes and answers whether that went
well, or only notes the path and answers yes, or answers no, or breaks off with an error of its own,
or answers with a value of which the truth cannot be told, or waits for an answer from outside. -/
inductive Quiet
  | attempts
  | notes
  | declines
  | breaks
  | confounds
  | waits
deriving DecidableEq, Repr

/-- A strategy. Whatever can be asked to delete serves as one, and it need not bear a name. -/
structure Strategy where
  label : Option String
  removal : Removal
  quiet : Quiet
deriving DecidableEq, Repr

structure DeletionError where
  path : String
  reason : String
  cause : Failure
deriving DecidableEq, Repr

def DeletionError.message (error : DeletionError) : String :=
  "Cannot delete " ++ error.path ++ ": " ++ error.reason

namespace Host

/-- Whether a path leads to no entry and is no link either. -/
def absent (host : Host) (text : String) : Except OsError Bool :=
  match host.present text with
  | .error error => .error error
  | .ok true => .ok false
  | .ok false =>
      match host.isLink text with
      | .error error => .error error
      | .ok link => .ok !link

/-- Whether a path names a directory and not a link to one. -/
def isRealDirectory (host : Host) (text : String) : Except OsError Bool :=
  match host.isDirectory text with
  | .error error => .error error
  | .ok false => .ok false
  | .ok true =>
      match host.isLink text with
      | .error error => .error error
      | .ok link => .ok !link

def settle (host : Host) : Except Failure Host → Except Failure Unit × Host
  | .ok host => (.ok (), host)
  | .error failure => (.error failure, host)

def remove (host : Host) (removal : Removal) (text : String) : Except Failure Unit × Host :=
  match removal with
  | .failing message => (.error (.os (.plain message)), host)
  | .single =>
      match host.isRealDirectory text with
      | .error error => (.error (.os error), host)
      | .ok true => host.settle (host.rmdir text)
      | .ok false => host.settle (host.unlink text)
  | .recursive =>
      match host.isRealDirectory text with
      | .error error => (.error (.os error), host)
      | .ok true => host.removeAll text
      | .ok false => host.settle (host.unlink text)

end Host

inductive Builtin
  | normal
  | force
deriving DecidableEq, Repr

def Strategy.name (strategy : Strategy) : String :=
  strategy.label.getD ""

namespace Builtin

def name : Builtin → String
  | normal => "normal"
  | force => "force"

/-- Normal deletion removes files, links and empty directories; forced deletion removes other
directories with their contents as well. -/
def strategy : Builtin → Strategy
  | normal => ⟨"normal", .single, .attempts⟩
  | force => ⟨"force", .recursive, .attempts⟩

def all : List Builtin := [normal, force]

def ofText? (text : String) : Option Builtin :=
  all.find? (·.name = text)

/-- The strategy of a name, letter case and surrounding blanks aside. -/
def named? (text : String) : Option Builtin :=
  ofText? (String.ofList ((Text.stripChars text.toList).map Char.toLower))

def unknownMessage (text : String) : String :=
  "Unknown delete strategy '" ++ text ++ "', expected one of: "
    ++ ", ".intercalate (all.map name)

@[simp] theorem ofText?_name (b : Builtin) : ofText? b.name = some b := by
  cases b <;> rfl

end Builtin

namespace Strategy

abbrev normal : Strategy := Builtin.normal.strategy

abbrev force : Strategy := Builtin.force.strategy

def describe (strategy : Strategy) : String :=
  "DeleteStrategy[" ++ strategy.name ++ "]"

def delete (strategy : Strategy) (shown : String) (path : Path) (host : Host) :
    Except DeletionError Unit × Host :=
  let failed (failure : Failure) : DeletionError := ⟨shown, failure.reason, failure⟩
  match host.absent path.text with
  | .error error => (.error (failed (.os error)), host)
  | .ok true => (.ok (), host)
  | .ok false =>
      match host.remove strategy.removal path.text with
      | (.ok (), host) => (.ok (), host)
      | (.error failure, host) => (.error (failed failure), host)

end Strategy
end Reclaim
