import Reclaim.Files.Change

/-!
The machine that files are on: the tree, the current directory, where temporary files go, and
faults. A fault is an error that a call meets on certain paths before anything is looked up;
with it the failures of a real system that the tree alone cannot show are part of the state.
-/

namespace Reclaim

open Files

inductive Call
  | presence
  | linkTest
  | directoryTest
  | unlink
  | rmdir
  | mkdir
  -- the making of a directory, once there is a directory for it to go to
  | mkdirInside
  | removeAll
  | replace
  | makeTemporary
  | read
deriving DecidableEq, Repr

/-- The paths that a fault is about: every path, those with one final part, or a single one. -/
inductive Scope
  | everywhere
  | last (name : String)
  | whole (text : String)
deriving DecidableEq, Repr

namespace Scope

instance : Coe (Option String) Scope where
  coe
    | none => everywhere
    | some name => last name

def holds (text : String) : Scope → Bool
  | everywhere => true
  | last name => name = (Path.ofText text).name
  | whole path => path = text

end Scope

structure Fault where
  call : Call
  scope : Scope
  error : OsError
deriving DecidableEq, Repr

def Fault.meets (fault : Fault) (call : Call) (text : String) : Bool :=
  fault.call = call && fault.scope.holds text

/-- A removal of a whole directory that breaks off with an error on some paths, when all that lies
inside has gone but for some entries and the directories on the way to them. -/
structure Breakdown where
  scope : Scope
  spared : List Place
  error : OsError
deriving DecidableEq, Repr

/-- A machine. The current directory has an empty name for each directory on the way that was
removed. Temporary files whose place is not given go to a directory of their own, and their names are
numbered. -/
structure Host where
  tree : Tree
  cwd : Place
  temporary : String
  nextName : Nat
  faults : List Fault
  breakdowns : List Breakdown := []

structure Conditions where
  faults : List Fault
  breakdowns : List Breakdown
deriving DecidableEq, Repr

namespace Host

def conditions (host : Host) : Conditions := ⟨host.faults, host.breakdowns⟩

def under (host : Host) (conditions : Conditions) : Host :=
  { host with faults := conditions.faults, breakdowns := conditions.breakdowns }

@[simp] theorem under_conditions (host : Host) : host.under host.conditions = host := rfl

def withTree (host : Host) (tree : Tree) : Host :=
  { host with tree := tree, cwd := tree.detach host.cwd }

@[simp] theorem withTree_tree (host : Host) (tree : Tree) : (host.withTree tree).tree = tree := rfl

@[simp] theorem withTree_cwd (host : Host) (tree : Tree) :
    (host.withTree tree).cwd = tree.detach host.cwd := rfl

@[simp] theorem withTree_faults (host : Host) (tree : Tree) :
    (host.withTree tree).faults = host.faults := rfl

@[simp] theorem withTree_conditions (host : Host) (tree : Tree) :
    (host.withTree tree).conditions = host.conditions := rfl

def fault? (host : Host) (call : Call) (text : String) : Option OsError :=
  (host.faults.find? (·.meets call text)).map (·.error)

def breakdown? (host : Host) (text : String) : Option Breakdown :=
  host.breakdowns.find? (·.scope.holds text)

def holdsNul (text : String) : Bool :=
  text.toList.contains '\x00'

def textOf (place : Place) : String :=
  "/" ++ "/".intercalate place.reverse

/-- The current directory, unless it has been removed. -/
def currentDirectory? (host : Host) : Option Path :=
  if (host.tree.get? host.cwd).isSome then some (.ofText (textOf host.cwd)) else none

end Host
end Reclaim
