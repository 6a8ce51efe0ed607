/-!
Values of TOML documents. A table keeps its keys in the order in which they were first given.
Numbers with a fraction and points in time are kept as they are written.
-/

namespace Reclaim.Toml

inductive Value
  | string (text : String)
  | integer (value : Int)
  | float (written : String)
  | boolean (value : Bool)
  | moment (written : String)
  | array (items : List Value)
  | table (entries : List (String × Value))

abbrev Table := List (String × Value)

abbrev Key := List String

inductive Defect
  | malformed
  -- a decimal integer has more digits than are accepted
  | hugeInteger
deriving DecidableEq, Repr

namespace Value

def text? : Value → Option String
  | string text => some text
  | _ => none

def table? : Value → Option Table
  | table entries => some entries
  | _ => none

def isNested : Value → Bool
  | array _ | table _ => true
  | _ => false

end Value

namespace Table

def get? (t : Table) (key : String) : Option Value :=
  (t.find? (·.1 = key)).map (·.2)

def set (t : Table) (key : String) (value : Value) : Table :=
  t.map fun e => if e.1 = key then (key, value) else e

def add (t : Table) (key : String) (value : Value) : Except Defect Table :=
  if (t.get? key).isSome then .error .malformed else .ok (t ++ [(key, value)])

/-- Changes the table that a key leads to. Missing tables on the way are made; where the key
leads through an array, its last item is meant if `throughArrays` is set. -/
def modifyAt (throughArrays : Bool) (change : Table → Except Defect Table) :
    Key → Table → Except Defect Table
  | [], t => change t
  | part :: rest, t =>
      match t.get? part with
      | none => do return t ++ [(part, .table (← modifyAt throughArrays change rest []))]
      | some (.table inner) => do
          return t.set part (.table (← modifyAt throughArrays change rest inner))
      | some (.array items) =>
          match throughArrays, items.getLast? with
          | true, some (.table inner) => do
              let inner ← modifyAt throughArrays change rest inner
              return t.set part (.array (items.dropLast ++ [.table inner]))
          | _, _ => .error .malformed
      | some _ => .error .malformed

def appendTable (key : String) (t : Table) : Except Defect Table :=
  match t.get? key with
  | none => .ok (t ++ [(key, .array [.table []])])
  | some (.array items) => .ok (t.set key (.array (items ++ [.table []])))
  | some _ => .error .malformed

end Table
end Reclaim.Toml
