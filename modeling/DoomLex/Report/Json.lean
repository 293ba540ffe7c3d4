/-
JSON documents as reports write them: two blanks to a level, each entry on a line of its own, an
empty array or object as its two brackets. Text keeps all characters but the quote, the backslash
and the controls below the blank.
-/
import DoomLex.Text.Digits

namespace DoomLex

/-- A JSON value of a report. -/
inductive Json where
  | bool (b : Bool)
  | number (n : Nat)
  | text (t : Text)
  | array (items : List Json)
  | object (fields : List (Text × Json))

namespace Json

/-- The text of a string. -/
def ofString (s : String) : Json := .text s.toList

/-- How one character stands in a quoted text. -/
def escape (c : Char) : Text :=
  if c = '"' then ['\\', '"']
  else if c = '\\' then ['\\', '\\']
  else if c = '\x08' then ['\\', 'b']
  else if c = '\x0c' then ['\\', 'f']
  else if c = '\n' then ['\\', 'n']
  else if c = '\r' then ['\\', 'r']
  else if c = '\t' then ['\\', 't']
  else if c < ' ' then ['\\', 'u'] ++ Text.padded 16 4 c.toNat
  else [c]

/-- The text in double quotes. -/
def quote (t : Text) : Text := '"' :: t.flatMap escape ++ ['"']

/-- The start of a line at a level. -/
def newLine (level : Nat) : Text := '\n' :: List.replicate (2 * level) ' '

mutual

/-- Writes a value that starts at a level. -/
def write (level : Nat) : Json → Text
  | .bool b => (if b then "true" else "false").toList
  | .number n => Text.numeral n
  | .text t => quote t
  | .array [] => ['[', ']']
  | .array (item :: rest) =>
    '[' :: newLine (level + 1) ++ write (level + 1) item ++ writeItems (level + 1) rest ++ newLine level ++
      [']']
  | .object [] => ['{', '}']
  | .object ((key, value) :: rest) =>
    '{' :: newLine (level + 1) ++ quote key ++ [':', ' '] ++ write (level + 1) value ++
      writeFields (level + 1) rest ++ newLine level ++ ['}']

/-- Writes the items of an array after the first. -/
def writeItems (level : Nat) : List Json → Text
  | [] => []
  | item :: rest => ',' :: newLine level ++ write level item ++ writeItems level rest

/-- Writes the fields of an object after the first. -/
def writeFields (level : Nat) : List (Text × Json) → Text
  | [] => []
  | (key, value) :: rest =>
    ',' :: newLine level ++ quote key ++ [':', ' '] ++ write level value ++ writeFields level rest

end

/-- The document of a value, which ends its last line. -/
def document (j : Json) : Text := write 0 j ++ ['\n']

end Json

end DoomLex
