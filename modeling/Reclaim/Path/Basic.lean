/-!
Paths as names. A text is split at its slashes; empty parts and single dots carry no meaning
and are dropped, while two dots are kept, since what they lead to depends on links. The number
of leading slashes matters up to three: exactly two stay two, three or more are one.
-/

namespace Reclaim

def splitSlash : List Char → List (List Char)
  | [] => [[]]
  | c :: cs =>
      if c = '/' then [] :: splitSlash cs
      else match splitSlash cs with
        | [] => [[c]]
        | piece :: pieces => (c :: piece) :: pieces

theorem splitSlash_ne_nil (cs : List Char) : splitSlash cs ≠ [] := by
  cases cs with
  | nil => simp [splitSlash]
  | cons c cs =>
      unfold splitSlash
      split
      · simp
      · split <;> simp

def components (text : String) : List String :=
  (splitSlash text.toList).map String.ofList

inductive Anchor
  | relative
  | root
  | doubleRoot
deriving DecidableEq, Repr

namespace Anchor

def text : Anchor → String
  | relative => ""
  | root => "/"
  | doubleRoot => "//"

def ofChars : List Char → Anchor
  | '/' :: '/' :: '/' :: _ => root
  | '/' :: '/' :: _ => doubleRoot
  | '/' :: _ => root
  | _ => relative

end Anchor

structure Path where
  anchor : Anchor
  parts : List String
deriving DecidableEq, Repr

namespace Path

def isPart (component : String) : Bool :=
  component != "" && component != "."

def ofText (text : String) : Path where
  anchor := .ofChars text.toList
  parts := (components text).filter isPart

/-- The path of no parts is written as a dot. -/
def text (p : Path) : String :=
  if p.anchor = .relative ∧ p.parts = [] then "." else p.anchor.text ++ "/".intercalate p.parts

def isAbsolute (p : Path) : Bool :=
  p.anchor != .relative

def name (p : Path) : String :=
  p.parts.getLast?.getD ""

/-- The path without its final part; a root is its own parent. -/
def parent (p : Path) : Path :=
  { p with parts := p.parts.dropLast }

/-- The second path as seen from the first: an absolute path is seen as itself. -/
def join (base p : Path) : Path :=
  if p.anchor = .relative then { base with parts := base.parts ++ p.parts } else p

def child (base : Path) (part : String) : Path :=
  base.join (ofText part)

@[simp] theorem join_relative (base : Path) (parts : List String) :
    base.join ⟨.relative, parts⟩ = { base with parts := base.parts ++ parts } := rfl

end Path
end Reclaim
