/-
The machine of merge scripts (WadMerge): a line is a command with arguments. An argument of the
script itself, a dollar sign with digits or a name after it, is a token of its own wherever it
stands, also within words and literals; a literal falls into pieces around it.
-/
import DoomLex.Grammar.Dialect
import DoomLex.Grammar.Literal
import DoomLex.Machine
import DoomLex.Text.Alphabetic
import DoomLex.Text.Blank

namespace DoomLex.MergeScript

/-- What a script argument stands in. -/
inductive Host where
  | word
  | literal
deriving DecidableEq, Repr

/-- How much of a script argument has been read. -/
inductive Argument where
  /-- The dollar sign alone. -/
  | sigil
  /-- The dollar sign and digits. -/
  | positional
  /-- The dollar sign and a name. -/
  | named
deriving DecidableEq, Repr

/-- The argument with one more character; none if it ends before the character. -/
def Argument.step : Argument → Char → Option Argument
  | sigil, c =>
    if Text.isDigit c then some positional
    else if Text.isAlphabetic c || c == '_' then some named
    else none
  | positional, c => if Text.isDigit c then some positional else none
  | named, c => if Text.isAlphanumeric c || c == '_' then some named else none

/-- A state of the machine. -/
inductive Scan where
  /-- Between tokens. -/
  | neutral
  | blank
  | comment
  | word
  | decimal
  | literal (q : Literal)
  | argument (host : Host) (a : Argument)
deriving DecidableEq, Repr

/-- The names of commands. -/
def words : WordTable Kind :=
  wordsOf
    ["END", "CREATE", "CREATEFILE", "CLEAR", "DISCARD", "SAVE", "LOAD", "FINISH", "VALID", "MARKER",
      "DATEMARKER", "MERGE", "MERGEWAD", "MERGEFILE", "MERGEMAP", "MERGEMAPFILE", "MERGEDIR",
      "MERGESWANTBLS", "MERGEDEUTEXFILE", "MERGETEXTUREDIR"]
    []

/-- Where the scan goes on before the character that ends an argument. -/
def resume (host : Host) (c : Char) : Scan :=
  match host with
  | .literal => .literal .body
  | .word => if Text.isBlank c then .neutral else .word

/-- The answer to a character other than a line break. -/
def answer : Scan → Char → Answer Scan
  | .neutral, c =>
    if c = '#' then .take .comment
    else if Text.isBlank c then .take .blank
    else if c = '"' then .take (.literal .body)
    else if c = '$' then .take (.argument .word .sigil)
    else if Text.isDigit c then .take .decimal
    else .take .word
  | .blank, c => if Text.isBlank c then .take .blank else .cut .neutral
  | .comment, _ => .take .comment
  | .word, c =>
    if Text.isBlank c then .cut .neutral
    else if c = '$' then .split (.argument .word .sigil)
    else .take .word
  | .decimal, c =>
    if Text.isBlank c then .cut .neutral
    else if c = '$' then .split (.argument .word .sigil)
    else if Text.isDigit c then .take .decimal
    else .take .word
  | .literal q, c =>
    if q = .body ∧ c = '$' then .split (.argument .literal .sigil)
    else
      match q.step true c with
      | .stay q' => .take (.literal q')
      | .again q' => .again (.literal q')
      | .closed kind => .close kind .neutral
  | .argument host a, c =>
    match a.step c with
    | some a' => .take (.argument host a')
    | none => .cut (resume host c)

/-- The kind of a pending run that ends before a character. -/
def label : Scan → Text → Kind
  | .neutral, _ | .blank, _ => .whitespace
  | .comment, _ => .lineComment
  | .word, run => (words.get? run).getD .identifier
  | .decimal, _ => .decimal
  | .literal _, _ => .string
  | .argument _ _, _ => .argument

/-- The kind of a pending run that ends with its line, which leaves literals open. -/
def lastLabel : Scan → Text → Kind
  | .literal q, _ => q.openKind
  | .argument .literal _, _ => .errorString
  | s, run => label s run

/-- The machine of merge scripts. -/
def machine : Machine Scan where
  enter _ := .neutral
  answer := answer
  label := label
  lastLabel := lastLabel
  leave _ := .neutral

end DoomLex.MergeScript
