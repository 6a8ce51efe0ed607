import Reclaim.Files.Failure
import Reclaim.Files.Tree
import Reclaim.Path.Basic

/-!
Finding the place that a path leads to. The walk takes the components one after another from
where it stands: an empty component or a dot stays, two dots go to the enclosing directory, and
a name is looked up. A link in the way is replaced by its target; at most forty links are
followed in one walk. The final component is followed or not as the caller asks.
-/

namespace Reclaim.Files

/-- Where a run over components ends that stops at the first link to be followed. -/
inductive Scan
  | arrived (place : Place)
  | failed (reason : Reason)
  | link (directory : Place) (target : String) (rest : List String)
deriving DecidableEq

def maxNameSize : Nat := 255

/-- Paths of this many bytes or more are refused. -/
def pathSizeLimit : Nat := 4096

def maxLinks : Nat := 40

namespace Tree

/-- Why a name that is too long is not found; in a directory that is gone no name is looked at. -/
def overlong (tree : Tree) (directory : Place) : Reason :=
  if tree.get? directory = none then .missing else .nameTooLong

def scan (tree : Tree) (followLast : Bool) : Place → List String → Scan
  | place, [] => .arrived place
  | place, name :: rest =>
      if name = "" ∨ name = "." then scan tree followLast place rest
      else if name = ".." then scan tree followLast place.tail rest
      else if maxNameSize < name.utf8ByteSize then .failed (tree.overlong place)
      else match tree.get? (name :: place) with
        | none => .failed .missing
        | some .directory => scan tree followLast (name :: place) rest
        | some (.file _) =>
            if rest = [] then .arrived (name :: place) else .failed .notDirectory
        | some (.link target) =>
            if rest = [] ∧ followLast = false then .arrived (name :: place)
            else .link place target rest

/-- Where a walk begins: at the root for a path that begins with a slash. -/
def start (cwd : Place) (text : String) : Place :=
  if text.toList.head? = some '/' then [] else cwd

/-- Walks on through links; the number says how many may still be followed. -/
def follow (tree : Tree) (followLast : Bool) : Nat → Place → List String → Except Reason Place
  | links, place, names =>
      match tree.scan followLast place names with
      | .arrived place => .ok place
      | .failed reason => .error reason
      | .link directory target rest =>
          match links with
          | 0 => .error .tooManyLinks
          | links + 1 =>
              follow tree followLast links (start directory target) (components target ++ rest)

def checkText (text : String) : Except Reason Unit :=
  if pathSizeLimit ≤ text.utf8ByteSize then .error .nameTooLong
  else if text = "" then .error .missing
  else .ok ()

def resolve (tree : Tree) (cwd : Place) (followLast : Bool) (text : String) :
    Except Reason Place :=
  match checkText text with
  | .error reason => .error reason
  | .ok () => tree.follow followLast maxLinks (start cwd text) (components text)

/-- The kind of entry at a place that a walk led to. A directory that was removed while it was
the current one is still a directory for the paths that do not leave it. -/
def reached (tree : Tree) (place : Place) : Entry :=
  (tree.get? place).getD .directory

end Tree

inductive Final
  | root
  | dot
  | dotDot
  -- a name, and whether a slash follows it
  | name (name : String) (slash : Bool)
deriving DecidableEq

def Final.ofName (name : String) (slash : Bool) : Final :=
  if name = "." then .dot else if name = ".." then .dotDot else .name name slash

def splitFinal (text : String) : List String × Final :=
  let all := (components text).reverse
  match all.dropWhile (· = "") with
  | [] => ([], .root)
  | name :: before => (before.reverse, .ofName name (all.head? = some ""))

namespace Tree

def resolveParent (tree : Tree) (cwd : Place) (text : String) : Except Reason (Place × Final) :=
  match checkText text with
  | .error reason => .error reason
  | .ok () =>
      let (before, final) := splitFinal text
      match tree.follow true maxLinks (start cwd text) (before ++ [""]) with
      | .error reason => .error reason
      | .ok place => .ok (place, final)

end Tree
end Reclaim.Files
