import Reclaim.Toml.Text

/-!
Numbers and points in time in TOML documents. Each reader takes the longest beginning of the
input that has its form; where a date or a number goes on in another way, the rest is left for
the caller to refuse.
-/

namespace Reclaim.Toml

def moreDigits (isDigit : Char → Bool) : List Char → List Char × List Char
  | '_' :: c :: cs =>
      if isDigit c then
        let (digits, rest) := moreDigits isDigit cs
        (c :: digits, rest)
      else ([], '_' :: c :: cs)
  | c :: cs =>
      if isDigit c then
        let (digits, rest) := moreDigits isDigit cs
        (c :: digits, rest)
      else ([], c :: cs)
  | [] => ([], [])

def digits? (isDigit : Char → Bool) : List Char → Option (List Char × List Char)
  | c :: cs =>
      if isDigit c then
        let (more, rest) := moreDigits isDigit cs
        some (c :: more, rest)
      else none
  | [] => none

def baseOf? : Char → Option Nat
  | 'x' => some 16
  | 'o' => some 8
  | 'b' => some 2
  | _ => none

def isDigitOf (base : Nat) (c : Char) : Bool :=
  match hexValue? c with
  | some value => value < base
  | none => false

def valueOf (base : Nat) (digits : List Char) : Nat :=
  numberOf base (digits.filterMap hexValue?)

def basedInteger? : List Char → Option (Int × List Char)
  | '0' :: letter :: cs =>
      match baseOf? letter with
      | none => none
      | some base => (digits? (isDigitOf base) cs).map fun (digits, rest) =>
          ((valueOf base digits : Nat), rest)
  | _ => none

def splitSign : List Char → Bool × List Char
  | '-' :: cs => (true, cs)
  | '+' :: cs => (false, cs)
  | cs => (false, cs)

def wholePart? : List Char → Option (List Char × List Char)
  | '0' :: cs => some (['0'], cs)
  | cs => digits? Char.isDigit cs

def skipFraction : List Char → List Char
  | '.' :: cs =>
      match digits? Char.isDigit cs with
      | some (_, rest) => rest
      | none => '.' :: cs
  | cs => cs

def skipExponent : List Char → List Char
  | c :: cs =>
      if c = 'e' ∨ c = 'E' then
        match digits? Char.isDigit (splitSign cs).2 with
        | some (_, rest) => rest
        | none => c :: cs
      else c :: cs
  | [] => []

def written (cs rest : List Char) : String :=
  String.ofList (cs.take (cs.length - rest.length))

def maxIntegerDigits : Nat := 4300

def decimalNumber? (cs : List Char) : Option (Except Defect (Value × List Char)) :=
  let (negative, unsigned) := splitSign cs
  match wholePart? unsigned with
  | none => none
  | some (digits, rest) =>
      let after := skipExponent (skipFraction rest)
      if after.length < rest.length then some (.ok (.float (written cs after), after))
      else if maxIntegerDigits < digits.length then some (.error .hugeInteger)
      else
        let n : Int := valueOf 10 digits
        some (.ok (.integer (if negative then -n else n), rest))

def number? (cs : List Char) : Option (Except Defect (Value × List Char)) :=
  match basedInteger? cs with
  | some (n, rest) => some (.ok (.integer n, rest))
  | none => decimalNumber? cs

def specialFloat? (cs : List Char) : Option (Value × List Char) :=
  let word := (splitSign cs).2.take 3
  if word = ['i', 'n', 'f'] ∨ word = ['n', 'a', 'n'] then
    let rest := (splitSign cs).2.drop 3
    some (.float (written cs rest), rest)
  else none

def fixedDigits? (count : Nat) (cs : List Char) : Option (Nat × List Char) :=
  let digits := cs.take count
  if digits.length = count ∧ digits.all Char.isDigit then some (valueOf 10 digits, cs.drop count)
  else none

def twoDigits? (low high : Nat) (cs : List Char) : Option (Nat × List Char) :=
  match fixedDigits? 2 cs with
  | some (n, rest) => if low ≤ n ∧ n ≤ high then some (n, rest) else none
  | none => none

def expect? (c : Char) : List Char → Option (List Char)
  | d :: cs => if d = c then some cs else none
  | [] => none

def skipSecondFraction : List Char → List Char
  | '.' :: c :: cs => if c.isDigit then cs.dropWhile Char.isDigit else '.' :: c :: cs
  | cs => cs

def time? (cs : List Char) : Option (List Char) := do
  let (_, cs) ← twoDigits? 0 23 cs
  let cs ← expect? ':' cs
  let (_, cs) ← twoDigits? 0 59 cs
  let cs ← expect? ':' cs
  let (_, cs) ← twoDigits? 0 59 cs
  return skipSecondFraction cs

def offset? : List Char → Option (List Char)
  | c :: cs =>
      if c = 'Z' ∨ c = 'z' then some cs
      else if c = '+' ∨ c = '-' then do
        let (_, cs) ← twoDigits? 0 23 cs
        let cs ← expect? ':' cs
        let (_, cs) ← twoDigits? 0 59 cs
        return cs
      else none
  | [] => none

def isLeapYear (year : Nat) : Bool :=
  year % 4 = 0 && (year % 100 != 0 || year % 400 = 0)

def daysOf (year month : Nat) : Nat :=
  if month = 2 then (if isLeapYear year then 29 else 28)
  else if month ∈ [4, 6, 9, 11] then 30
  else 31

/-- Year, month and day in their form, whether or not there is such a day. -/
def date? (cs : List Char) : Option ((Nat × Nat × Nat) × List Char) := do
  let (year, cs) ← fixedDigits? 4 cs
  let cs ← expect? '-' cs
  let (month, cs) ← twoDigits? 1 12 cs
  let cs ← expect? '-' cs
  let (day, cs) ← twoDigits? 1 31 cs
  return ((year, month, day), cs)

def skipTimeOfDate : List Char → List Char
  | c :: cs =>
      if c = 'T' ∨ c = 't' ∨ c = ' ' then
        match time? cs with
        | some rest => (offset? rest).getD rest
        | none => c :: cs
      else c :: cs
  | [] => []

def moment? (cs : List Char) : Option (Except Defect (Value × List Char)) :=
  match date? cs with
  | some ((year, month, day), rest) =>
      if year = 0 ∨ daysOf year month < day then some (.error .malformed)
      else
        let rest := skipTimeOfDate rest
        some (.ok (.moment (written cs rest), rest))
  | none => (time? cs).map fun rest => .ok (.moment (written cs rest), rest)

end Reclaim.Toml
