import Reclaim.Text.Blank
import Reclaim.Text.Decimal

/-!
Colour codes. A code is a number sign and three or six characters that read as a number in base
sixteen. Such a number may have blanks around it, one sign, the mark 0x, and single underscores
between its digits and after the mark; decimal digits of every script count as digits.
-/

namespace Reclaim.Colour

def plain? (c : Char) : Option Char :=
  if c.toNat < 127 then some c
  else if Text.isBlank c then some ' '
  else (Text.decimalValue? c).map Nat.digitChar

def isGap (c : Char) : Bool :=
  c = ' ' || (0x9 ≤ c.toNat && c.toNat ≤ 0xd)

def isHexDigit (c : Char) : Bool :=
  c.isDigit || ('a' ≤ c && c ≤ 'f') || ('A' ≤ c && c ≤ 'F')

def dropSign : List Char → List Char
  | '+' :: cs => cs
  | '-' :: cs => cs
  | cs => cs

def dropMark : List Char → List Char
  | '0' :: 'x' :: '_' :: cs => cs
  | '0' :: 'X' :: '_' :: cs => cs
  | '0' :: 'x' :: cs => cs
  | '0' :: 'X' :: cs => cs
  | cs => cs

/-- Whether digits and single underscores follow, the last a digit, and then only gaps. The
flag says whether a digit has just been read. -/
def isDigits : Bool → List Char → Bool
  | afterDigit, [] => afterDigit
  | afterDigit, c :: cs =>
      if isHexDigit c then isDigits true cs
      else if c = '_' then afterDigit && isDigits false cs
      else afterDigit && (c :: cs).all isGap

def isHexNumber (cs : List Char) : Bool :=
  match cs.mapM plain? with
  | none => false
  | some cs => isDigits false (dropMark (dropSign (cs.dropWhile isGap)))

inductive Defect
  | notText
  | noNumberSign
  | wrongLength
  | notNumber (code : String)
deriving DecidableEq, Repr

def Defect.message : Defect → String
  | notText => "color must be a string"
  | noNumberSign => "color must start with '#'"
  | wrongLength => "color must be #RGB or #RRGGBB format"
  | notNumber code => "invalid hex color '" ++ code ++ "'"

def ofText (text : String) : Except Defect String :=
  match Text.stripChars text.toList with
  | '#' :: digits =>
      if digits.length ≠ 3 ∧ digits.length ≠ 6 then .error .wrongLength
      else if isHexNumber digits then .ok (String.ofList ('#' :: digits))
      else .error (.notNumber (String.ofList ('#' :: digits)))
  | _ => .error .noNumberSign

end Reclaim.Colour
