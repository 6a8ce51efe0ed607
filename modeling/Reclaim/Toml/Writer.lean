import Reclaim.Text.Quoted

/-!
Writing strings for TOML documents. The quotation mark, the backslash and control characters are
escaped; a tab is written as it is.
-/

namespace Reclaim.Toml

def escapeChar (c : Char) : List Char :=
  if c = '"' then ['\\', '"']
  else if c = '\\' then ['\\', '\\']
  else if c = '\x08' then ['\\', 'b']
  else if c = '\n' then ['\\', 'n']
  else if c = '\x0c' then ['\\', 'f']
  else if c = '\r' then ['\\', 'r']
  else if (c.toNat < 32 ∨ c.toNat = 127) ∧ c ≠ '\t' then
    '\\' :: 'u' :: Text.hexDigits 4 c.toNat
  else [c]

def writeString (text : String) : List Char :=
  '"' :: text.toList.flatMap escapeChar ++ ['"']

def writeLine (key text : String) : List Char :=
  key.toList ++ [' ', '=', ' '] ++ writeString text ++ ['\n']

end Reclaim.Toml
