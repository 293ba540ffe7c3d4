/-
Blank characters: the White_Space property of the Unicode standard. Every lexer separates words by
it, and names of languages are trimmed by it.
-/
import DoomLex.Text.Basic

namespace DoomLex.Text

/-- A character with the property White_Space. -/
def isBlank (c : Char) : Bool :=
  ('\t' ≤ c && c ≤ '\r') || c == ' ' || c == '\u0085' || c == '\u00a0' || c == '\u1680' ||
  ('\u2000' ≤ c && c ≤ '\u200a') || c == '\u2028' || c == '\u2029' || c == '\u202f' ||
  c == '\u205f' || c == '\u3000'

/-- The text without blank characters at its two ends. -/
def trim (t : Text) : Text :=
  ((t.dropWhile isBlank).reverse.dropWhile isBlank).reverse

end DoomLex.Text
