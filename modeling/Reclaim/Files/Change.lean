import Reclaim.Files.Walk

/-!
Changes to a tree by path. Each looks up the directory of the final component, refuses with the
reason of the system, or changes exactly the entry that the final component names there; only
the removal of a whole directory also takes what lies below it.
-/

namespace Reclaim.Files.Tree

def lookup (tree : Tree) (directory : Place) (name : String) : Except Reason (Option Entry) :=
  if maxNameSize < name.utf8ByteSize then .error (tree.overlong directory)
  else .ok (tree.get? (name :: directory))

def unlink (tree : Tree) (cwd : Place) (text : String) : Except Reason Tree := do
  match ← tree.resolveParent cwd text with
  | (directory, .name name slash) =>
      match ← tree.lookup directory name with
      | none => .error .missing
      | some .directory => .error .isDirectory
      | some _ => if slash then .error .notDirectory else .ok (tree.erase (name :: directory))
  | _ => .error .isDirectory

def rmdir (tree : Tree) (cwd : Place) (text : String) : Except Reason Tree := do
  match ← tree.resolveParent cwd text with
  | (_, .root) => .error .busy
  | (_, .dot) => .error .invalid
  | (_, .dotDot) => .error .notEmpty
  | (directory, .name name _) =>
      match ← tree.lookup directory name with
      | none => .error .missing
      | some .directory =>
          if tree.isBare (name :: directory) then .ok (tree.erase (name :: directory))
          else .error .notEmpty
      | some _ => .error .notDirectory

/-- Removes all that lies inside a directory, and then the directory by the same path. The
second step may fail after the first has been done. -/
def removeAll (tree : Tree) (cwd : Place) (text : String) : Except Reason Unit × Tree :=
  match tree.resolve cwd false text with
  | .error reason => (.error reason, tree)
  | .ok place =>
      match tree.reached place with
      | .directory =>
          let bare := tree.eraseBelow place
          match bare.rmdir cwd text with
          | .error reason => (.error reason, bare)
          | .ok tree => (.ok (), tree)
      | _ => (.error .notDirectory, tree)

def putNew (tree : Tree) (directory : Place) (name : String) (entry : Entry) :
    Except Reason Tree := do
  match ← tree.lookup directory name with
  | some _ => .error .present
  | none =>
      if tree.get? directory = none then .error .missing
      else .ok (tree.put (name :: directory) entry)

def mkdir (tree : Tree) (cwd : Place) (text : String) : Except Reason Tree := do
  match ← tree.resolveParent cwd text with
  | (directory, .name name _) => tree.putNew directory name .directory
  | _ => .error .present

def create (tree : Tree) (cwd : Place) (text : String) : Except Reason Tree := do
  match ← tree.resolveParent cwd text with
  | (directory, .name name slash) =>
      if slash then .error .isDirectory else tree.putNew directory name (.file .empty)
  | _ => .error .present

def symlink (tree : Tree) (cwd : Place) (target text : String) : Except Reason Tree := do
  Tree.checkText target
  match ← tree.resolveParent cwd text with
  | (directory, .name name slash) =>
      if slash then .error .missing else tree.putNew directory name (.link target)
  | _ => .error .present

/-- Moves a file or a link to another path, in place of what is there unless that is a
directory. -/
def replace (tree : Tree) (cwd : Place) (source target : String) : Except Reason Tree := do
  let (sourceDirectory, sourceFinal) ← tree.resolveParent cwd source
  let (targetDirectory, targetFinal) ← tree.resolveParent cwd target
  match sourceFinal, targetFinal with
  | .name sourceName sourceSlash, .name targetName targetSlash =>
      match ← tree.lookup sourceDirectory sourceName with
      | none => .error .missing
      | some .directory => .error .isDirectory
      | some entry =>
          let there ← tree.lookup targetDirectory targetName
          if sourceSlash || targetSlash then .error .notDirectory
          else if there = some .directory then .error .isDirectory
          else if tree.get? targetDirectory = none then .error .missing
          else .ok ((tree.erase (sourceName :: sourceDirectory)).put
            (targetName :: targetDirectory) entry)
  | _, _ => .error .busy

def read (tree : Tree) (cwd : Place) (text : String) : Except Reason ByteArray := do
  match tree.reached (← tree.resolve cwd true text) with
  | .file content => .ok content
  | _ => .error .isDirectory

def write (tree : Tree) (cwd : Place) (text : String) (content : ByteArray) :
    Except Reason Tree :=
  match tree.resolve cwd true text with
  | .ok place =>
      match tree.reached place with
      | .directory => .error .isDirectory
      | _ => .ok (tree.put place (.file content))
  | .error .missing => do
      match ← tree.resolveParent cwd text with
      | (directory, .name name slash) =>
          if slash then .error .isDirectory else tree.putNew directory name (.file content)
      | _ => .error .isDirectory
  | .error reason => .error reason

end Reclaim.Files.Tree
