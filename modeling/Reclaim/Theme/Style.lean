import Reclaim.Theme.Basic

/-!
The styles of the console. Ten styles are defined from the colours of a theme by words: an
optional `bold` and a colour. The console takes as a colour only a number sign and six
hexadecimal digits, letter case aside, so a short code is no style.
-/

namespace Reclaim

structure Style where
  name : String
  bold : Bool
  colour : String
deriving DecidableEq, Repr

namespace Style

structure BadWord where
  word : String
deriving DecidableEq, Repr

def BadWord.message (bad : BadWord) : String :=
  "unable to parse '" ++ bad.word ++ "' as color; '" ++ bad.word ++ "' is not a valid color"

def isColour : List Char → Bool
  | '#' :: digits =>
      digits.length = 6 && digits.all fun c => c.isDigit || ('a' ≤ c && c ≤ 'f')
  | _ => false

structure Definition where
  name : String
  bold : Bool
  role : Role
deriving DecidableEq, Repr

def definitions : List Definition :=
  [⟨"text", false, .text⟩, ⟨"muted", false, .muted⟩, ⟨"header", false, .header⟩,
   ⟨"border", false, .border⟩, ⟨"success", false, .success⟩, ⟨"warning", false, .warning⟩,
   ⟨"error", true, .error⟩, ⟨"info", false, .info⟩, ⟨"bold_header", true, .header⟩,
   ⟨"dim", false, .muted⟩]

def lower (word : String) : String :=
  String.ofList (word.toList.map Char.toLower)

def colourOf : List String → Except BadWord String
  | [] => .ok ""
  | word :: rest =>
      if isColour (lower word).toList then
        if rest.isEmpty then .ok (lower word) else colourOf rest
      else .error ⟨lower word⟩

def ofDefinition (theme : Theme) (d : Definition) : Except BadWord Style :=
  match colourOf (Text.words (theme.colour d.role)) with
  | .ok colour => .ok ⟨d.name, d.bold, colour⟩
  | .error bad => .error bad

def text (style : Style) : String :=
  if style.bold then "bold " ++ style.colour else style.colour

end Style

/-- The styles of a theme, or the first word that is no colour. -/
def Theme.styles (theme : Theme) : Except Style.BadWord (List Style) :=
  Style.definitions.mapM (Style.ofDefinition theme)

end Reclaim
