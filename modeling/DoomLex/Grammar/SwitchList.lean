/-
The machine of lists of switches and animations (DEFSWANI): headers of sections in brackets, and
entries of words and numbers between blanks.
-/
import DoomLex.Grammar.Dialect
import DoomLex.Machine
import DoomLex.Text.Blank
import DoomLex.Text.Digits

namespace DoomLex.SwitchList

/-- A state of the machine. -/
inductive Scan where
  /-- Between tokens. -/
  | neutral
  | blank
  | comment
  | decimal
  | word
deriving DecidableEq, Repr

/-- The headers of sections. -/
def words : WordTable Kind := wordsOf ["[SWITCHES]", "[FLATS]", "[TEXTURES]"] []

/-- The answer to a character other than a line break. -/
def answer : Scan → Char → Answer Scan
  | .neutral, c =>
    if c = '#' then .take .comment
    else if Text.isBlank c then .take .blank
    else if Text.isDigit c then .take .decimal
    else .take .word
  | .blank, c => if Text.isBlank c then .take .blank else .cut .neutral
  | .comment, _ => .take .comment
  | .decimal, c =>
    if Text.isBlank c then .cut .neutral else if Text.isDigit c then .take .decimal else .take .word
  | .word, c => if Text.isBlank c then .cut .neutral else .take .word

/-- The kind of a pending run. -/
def label : Scan → Text → Kind
  | .neutral, _ | .blank, _ => .whitespace
  | .comment, _ => .lineComment
  | .decimal, _ => .decimal
  | .word, run => (words.get? run).getD .identifier

/-- The machine of lists of switches and animations. -/
def machine : Machine Scan where
  enter _ := .neutral
  answer := answer
  label := label
  lastLabel := label
  leave _ := .neutral

end DoomLex.SwitchList
