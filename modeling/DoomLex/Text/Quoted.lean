/-
Text shown to people. In double quotes tab, line break, carriage return, NUL, quote and backslash have
short escapes, and any other character that does not show as itself is written by its code point.
Without quotes only the control characters that a terminal could act on are written by theirs.
-/
import DoomLex.Text.Digits
import DoomLex.Text.Printable

namespace DoomLex.Text

/-! ## In quotes -/

/-- How one character stands between the quotes. -/
def escape (c : Char) : Text :=
  if c = '\t' then ['\\', 't']
  else if c = '\r' then ['\\', 'r']
  else if c = '\n' then ['\\', 'n']
  else if c = '\x00' then ['\\', '0']
  else if c = '"' then ['\\', '"']
  else if c = '\\' then ['\\', '\\']
  else if isPrintable c then [c]
  else ['\\', 'u', '{'] ++ Nat.toDigits 16 c.toNat ++ ['}']

/-- The text in double quotes. -/
def quoted (t : Text) : Text := '"' :: t.flatMap escape ++ ['"']

/-- The string in double quotes. -/
def quotedString (s : String) : String := String.ofList (quoted s.toList)

/-! ## On a terminal -/

/-- How one character is shown on a terminal. -/
def disarm (c : Char) : Text :=
  if ['\x07', '\x08', '\x0c', '\x1b', '\x7f'].contains c then ['\\', 'x'] ++ padded 16 2 c.toNat
  else if '\x80' ≤ c && c ≤ '\u009f' then ['\\', 'u', '{'] ++ Nat.toDigits 16 c.toNat ++ ['}']
  else [c]

/-- The string as it is shown on a terminal. -/
def disarmedString (s : String) : String := String.ofList (s.toList.flatMap disarm)

end DoomLex.Text
