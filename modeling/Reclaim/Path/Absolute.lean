import Reclaim.Path.Basic

/-!
The absolute form of a path, computed on its text alone: the current directory is put in front
and every pair of dots takes away the part before it. No part of an anchored result is a pair of
dots, since above the root there is nothing to take away.
-/

namespace Reclaim.Path

/-- Takes parts one by one onto a stack, on which a pair of dots removes the top. -/
def collapse (anchored : Bool) : List String → List String → List String
  | taken, [] => taken.reverse
  | taken, part :: rest =>
      if part = ".." then
        match taken with
        | [] => if anchored then collapse anchored [] rest else collapse anchored [".."] rest
        | top :: below =>
            if top = ".." then collapse anchored (".." :: top :: below) rest
            else collapse anchored below rest
      else collapse anchored (part :: taken) rest

/-- The path with its pairs of dots resolved as if no part were a link. -/
def lexical (p : Path) : Path :=
  { p with parts := collapse p.isAbsolute [] p.parts }

def absolute (cwd p : Path) : Path :=
  (cwd.join p).lexical

@[simp] theorem lexical_anchor (p : Path) : p.lexical.anchor = p.anchor := rfl

end Reclaim.Path
