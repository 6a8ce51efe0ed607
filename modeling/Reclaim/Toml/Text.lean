import Reclaim.Toml.Value

/-!
Texts in TOML documents: comments, the four kinds of string, and keys. Each reader answers what
it has read together with the rest of the input.
-/

namespace Reclaim.Toml

def isGap (c : Char) : Bool :=
  c = ' ' || c = '\t'

def isGapOrNewline (c : Char) : Bool :=
  isGap c || c = '\n'

def skipGaps (cs : List Char) : List Char :=
  cs.dropWhile isGap

/-- Control characters, which stand neither in comments nor in strings; a tab may, and a line end
in strings of several lines. -/
def isControl (c : Char) : Bool :=
  (c.toNat < 32 || c.toNat = 127) && c != '\t'

def skipComment : List Char → Except Defect (List Char)
  | '#' :: cs =>
      if (cs.takeWhile (· ≠ '\n')).any isControl then .error .malformed
      else .ok (cs.dropWhile (· ≠ '\n'))
  | cs => .ok cs

/-- Skips blanks, line ends and comments; the flag says whether a comment has begun. -/
def skipLines : Bool → List Char → Except Defect (List Char)
  | _, [] => .ok []
  | true, c :: cs =>
      if c = '\n' then skipLines false cs
      else if isControl c then .error .malformed
      else skipLines true cs
  | false, c :: cs =>
      if isGapOrNewline c then skipLines false cs
      else if c = '#' then skipLines true cs
      else .ok (c :: cs)

def hexValue? (c : Char) : Option Nat :=
  if c.isDigit then some (c.toNat - '0'.toNat)
  else if 'a' ≤ c ∧ c ≤ 'f' then some (c.toNat - 'a'.toNat + 10)
  else if 'A' ≤ c ∧ c ≤ 'F' then some (c.toNat - 'A'.toNat + 10)
  else none

def numberOf (base : Nat) (digits : List Nat) : Nat :=
  digits.foldl (fun n d => n * base + d) 0

def charOfHex? (digits : List Char) : Option Char :=
  match digits.mapM hexValue? with
  | none => none
  | some values =>
      let n := numberOf 16 values
      if n.isValidChar then some (Char.ofNat n) else none

def escaped? : Char → Option Char
  | 'b' => some '\x08'
  | 't' => some '\t'
  | 'n' => some '\n'
  | 'f' => some '\x0c'
  | 'r' => some '\r'
  | '"' => some '"'
  | '\\' => some '\\'
  | _ => none

inductive Trim
  | nothing
  -- blanks, up to a line end that has to come
  | toNewline
  -- blanks and line ends
  | all
deriving DecidableEq, Repr

def prepend (c : Char) :
    Except Defect (List Char × List Char) → Except Defect (List Char × List Char)
  | .ok (text, rest) => .ok (c :: text, rest)
  | .error defect => .error defect

def readBasic (multiline : Bool) : Trim → List Char → Except Defect (List Char × List Char)
  | _, [] => .error .malformed
  | trim, c :: cs =>
      if trim = .toNewline then
        if isGap c then readBasic multiline .toNewline cs
        else if c = '\n' then readBasic multiline .all cs
        else .error .malformed
      else if trim = .all ∧ isGapOrNewline c then readBasic multiline .all cs
      else if c = '"' then
        if multiline then
          match cs with
          | '"' :: '"' :: rest => .ok ([], rest)
          | _ => prepend '"' (readBasic multiline .nothing cs)
        else .ok ([], cs)
      else if c = '\\' then
        match cs with
        | [] => .error .malformed
        | e :: rest =>
            if multiline ∧ e = '\n' then readBasic multiline .all rest
            else if multiline ∧ isGap e then readBasic multiline .toNewline rest
            else if e = 'u' then
              match rest with
              | a :: b :: c :: d :: rest =>
                  match charOfHex? [a, b, c, d] with
                  | some c => prepend c (readBasic multiline .nothing rest)
                  | none => .error .malformed
              | _ => .error .malformed
            else if e = 'U' then
              match rest with
              | a :: b :: c :: d :: e :: f :: g :: h :: rest =>
                  match charOfHex? [a, b, c, d, e, f, g, h] with
                  | some c => prepend c (readBasic multiline .nothing rest)
                  | none => .error .malformed
              | _ => .error .malformed
            else
              match escaped? e with
              | some c => prepend c (readBasic multiline .nothing rest)
              | none => .error .malformed
      else if isControl c ∧ ¬(multiline ∧ c = '\n') then .error .malformed
      else prepend c (readBasic multiline .nothing cs)

def readLiteral (cs : List Char) : Except Defect (List Char × List Char) :=
  let text := cs.takeWhile (· ≠ '\'')
  match cs.dropWhile (· ≠ '\'') with
  | [] => .error .malformed
  | _ :: rest => if text.any isControl then .error .malformed else .ok (text, rest)

def readLiteralLines : List Char → Except Defect (List Char × List Char)
  | [] => .error .malformed
  | '\'' :: '\'' :: '\'' :: rest => .ok ([], rest)
  | c :: cs =>
      if isControl c ∧ c ≠ '\n' then .error .malformed else prepend c (readLiteralLines cs)

def dropNewline : List Char → List Char
  | '\n' :: cs => cs
  | cs => cs

/-- At most two more marks at the end of a string of several lines belong to it. -/
def closeLines (mark : Char) (text : List Char) (rest : List Char) : List Char × List Char :=
  match rest with
  | a :: b :: rest =>
      if a = mark then
        if b = mark then (text ++ [mark, mark], rest) else (text ++ [mark], b :: rest)
      else (text, a :: b :: rest)
  | [a] => if a = mark then (text ++ [mark], []) else (text, [a])
  | [] => (text, [])

def readString : List Char → Except Defect (String × List Char)
  | '"' :: '"' :: '"' :: cs => do
      let (text, rest) ← readBasic true .nothing (dropNewline cs)
      let (text, rest) := closeLines '"' text rest
      return (String.ofList text, rest)
  | '"' :: cs => do
      let (text, rest) ← readBasic false .nothing cs
      return (String.ofList text, rest)
  | '\'' :: '\'' :: '\'' :: cs => do
      let (text, rest) ← readLiteralLines (dropNewline cs)
      let (text, rest) := closeLines '\'' text rest
      return (String.ofList text, rest)
  | '\'' :: cs => do
      let (text, rest) ← readLiteral cs
      return (String.ofList text, rest)
  | _ => .error .malformed

def isBareKeyChar (c : Char) : Bool :=
  c.isAlphanum || c = '-' || c = '_'

def beginsKey (c : Char) : Bool :=
  isBareKeyChar c || c = '"' || c = '\''

def readKeyPart : List Char → Except Defect (String × List Char)
  | '\'' :: cs => do
      let (text, rest) ← readLiteral cs
      return (String.ofList text, rest)
  | '"' :: cs => do
      let (text, rest) ← readBasic false .nothing cs
      return (String.ofList text, rest)
  | cs =>
      let text := cs.takeWhile isBareKeyChar
      if text = [] then .error .malformed
      else .ok (String.ofList text, cs.dropWhile isBareKeyChar)

def readKeyParts : Nat → List Char → Except Defect (Key × List Char)
  | fuel, cs => do
      let (part, rest) ← readKeyPart cs
      match skipGaps rest with
      | '.' :: rest =>
          match fuel with
          | 0 => .error .malformed
          | fuel + 1 =>
              let (parts, rest) ← readKeyParts fuel (skipGaps rest)
              return (part :: parts, rest)
      | rest => return ([part], rest)

def readKey (cs : List Char) : Except Defect (Key × List Char) :=
  readKeyParts cs.length cs

end Reclaim.Toml
