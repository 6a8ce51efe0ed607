import Reclaim.Colour
import Reclaim.Validation

/-!
The colours of the command line: one for each of eight roles. A table of colours replaces some
of the defaults; it is refused as a whole if one of its values is no colour code or one of its
keys is no role.
-/

namespace Reclaim

inductive Role
  | text
  | muted
  | header
  | border
  | success
  | warning
  | error
  | info
deriving DecidableEq, Repr

namespace Role

def all : List Role := [text, muted, header, border, success, warning, error, info]

def name : Role → String
  | text => "text"
  | muted => "muted"
  | header => "header"
  | border => "border"
  | success => "success"
  | warning => "warning"
  | error => "error"
  | info => "info"

def defaultColour : Role → String
  | text => "#ffffff"
  | muted => "#b2bec3"
  | header => "#69B9A1"
  | border => "#29526d"
  | success => "#03b971"
  | warning => "#f5b332"
  | error => "#f53263"
  | info => "#0ec1c8"

theorem mem_all (role : Role) : role ∈ all := by
  cases role <;> decide

end Role

structure Theme where
  colour : Role → String

namespace Theme

def default : Theme := ⟨Role.defaultColour⟩

instance : Inhabited Theme := ⟨default⟩

def checkColour (role : Role) (value : Option String) : Except Issue String :=
  let refused (defect : Colour.Defect) : Issue :=
    ⟨some role.name, .refused (role.name ++ ": " ++ defect.message)⟩
  match value with
  | none => .error (refused .notText)
  | some text =>
      match Colour.ofText text with
      | .ok code => .ok code
      | .error defect => .error (refused defect)

def readColour (fields : Fields) (role : Role) : Except Issue String :=
  match fields.get? role.name with
  | none => .ok role.defaultColour
  | some value => checkColour role value

def issues (fields : Fields) : List Issue :=
  Role.all.flatMap (fun role => issueOf (readColour fields role))
    ++ fields.unknown (Role.all.map Role.name)

def ofFields (fields : Fields) : Except (List Issue) Theme :=
  match issues fields with
  | [] => .ok ⟨fun role => (readColour fields role).toOption.getD role.defaultColour⟩
  | found => .error found

def ofFields? : Option Fields → Except (List Issue) Theme
  | some fields => ofFields fields
  | none => .error [⟨none, .notTable "ThemeColors"⟩]

end Theme
end Reclaim
