/-!
Issues found when a table of settings is checked. The values of a table are seen as texts or as
something that is no text; nothing is converted. Declared fields are reported in the order of
their declaration and then unknown keys in the order of the table.
-/

namespace Reclaim

/-- A table by its keys; a value that is not a text counts as none. -/
abbrev Fields := List (String × Option String)

inductive Complaint
  | notText
  | tooShort
  | notStrategy
  -- a value that was looked at and refused, with the reason
  | refused (reason : String)
  | unknownKey
  -- the whole is not a table for the named kind of settings
  | notTable (settings : String)
deriving DecidableEq, Repr

def Complaint.message : Complaint → String
  | notText => "Input should be a valid string"
  | tooShort => "String should have at least 1 character"
  | notStrategy => "Input should be 'normal' or 'force'"
  | refused reason => "Value error, " ++ reason
  | unknownKey => "Extra inputs are not permitted"
  | notTable settings => "Input should be a valid dictionary or instance of " ++ settings

structure Issue where
  -- the key concerned, none for the table as a whole
  field : Option String
  complaint : Complaint
deriving DecidableEq, Repr

namespace Fields

def get? (fields : Fields) (key : String) : Option (Option String) :=
  (fields.find? (·.1 = key)).map (·.2)

def unknown (fields : Fields) (declared : List String) : List Issue :=
  (fields.filter fun f => f.1 ∉ declared).map fun f => ⟨some f.1, .unknownKey⟩

end Fields

def issueOf {α : Type} : Except Issue α → List Issue
  | .ok _ => []
  | .error issue => [issue]

theorem issueOf_eq_nil {α : Type} {result : Except Issue α} :
    issueOf result = [] ↔ ∃ a, result = .ok a := by
  cases result <;> simp [issueOf]

end Reclaim
