/-!
What is meant for the console: lines of marked-up text and tables, on the ordinary stream or on that
for errors. Four kinds of message have a markup of their own. What stands in them, such as the paths
that are told of, is handed over as it is; if it happens to look like markup, the console may find
the markup wrong, and then it shows nothing of the line or the table.
-/

namespace Reclaim

inductive Stream
  | out
  | err
deriving DecidableEq, Repr

inductive Justify
  | left
  | center
deriving DecidableEq, Repr

structure Column where
  header : String
  width : Option Nat
  justify : Justify
  noWrap : Bool
  style : String
deriving DecidableEq, Repr

structure Table where
  title : String
  columns : List Column
  rows : List (List String)
deriving DecidableEq, Repr

namespace Table

def headerStyle : String := "bold_header"

def borderStyle : String := "border"

def results (title : String) : Table where
  title := title
  columns := [⟨"Status", some 6, .center, false, ""⟩, ⟨"Path", none, .left, true, ""⟩,
    ⟨"Message", none, .left, false, "muted"⟩]
  rows := []

def defaultTitle : String := "Results"

end Table

inductive Output
  | line (stream : Stream) (text : String)
  | table (stream : Stream) (table : Table)
  -- logging is turned on
  | logging (level : Nat) (format : String)
deriving DecidableEq, Repr

namespace Output

def info (text : String) : Output :=
  .line .out ("[info]" ++ text ++ "[/]")

def warning (text : String) : Output :=
  .line .err ("[warning]Warning:[/] " ++ text)

def error (text : String) : Output :=
  .line .err ("[error]Error:[/] " ++ text)

def success (text : String) : Output :=
  .line .out ("[success]" ++ text ++ "[/]")

def colourSystem (terminal : Bool) : Option String :=
  if terminal then some "truecolor" else none

def texts : Output → List String
  | line _ text => [text]
  | table _ t => t.title :: t.columns.map (·.header) ++ t.rows.flatten
  | logging _ _ => []

end Output

namespace Markup

/-- Whether a character begins a tag when it follows an opening bracket. -/
def beginsTag (c : Char) : Bool :=
  c.isLower || c = '#' || c = '/' || c = '@'

def untaggedChars : List Char → Bool
  | [] => true
  | c :: rest => !(c = '[' && rest.head?.any beginsTag) && untaggedChars rest

def untagged (text : String) : Bool :=
  untaggedChars text.toList

/-- A text with a tag around a part of it. The end of the tag may repeat its name. -/
def wrap (before tag inner after : String) (named : Bool) : String :=
  before ++ ("[" ++ tag ++ "]") ++ inner ++ (if named then "[/" ++ tag ++ "]" else "[/]") ++ after

end Markup

/-- What a console has to say of texts with markup: nothing of those that it can show. It shows a
text without tags, and also one with a tag around a part of it. -/
structure Console where
  complaint? : String → Option String
  plain : ∀ text, Markup.untagged text → complaint? text = none
  wrapped : ∀ before tag inner after named,
    (∀ c ∈ before.toList, c ≠ '[' ∧ c ≠ '\\') → tag ≠ "" → (∀ c ∈ tag.toList, c.isLower) →
    Markup.untagged inner → Markup.untagged after →
      complaint? (Markup.wrap before tag inner after named) = none

namespace Console

def tolerant : Console := ⟨fun _ => none, fun _ _ => rfl, fun _ _ _ _ _ _ _ _ _ _ => rfl⟩

def refusal? (console : Console) (output : Output) : Option String :=
  output.texts.findSome? console.complaint?

/-- What comes to be seen of some output: all that stands before the first that cannot be shown. -/
def display (console : Console) : List Output → List Output × Option String
  | [] => ([], none)
  | output :: rest =>
      match console.refusal? output with
      | some complaint => ([], some complaint)
      | none =>
          let (seen, complaint) := console.display rest
          (output :: seen, complaint)

end Console
end Reclaim
