/-
The switches of the command line: how each is spelt, what value it takes, where it may stand, and the
variable of the environment that may stand in for it.
-/
import DoomLex.CommandLine.Command
import DoomLex.Text.Digits

namespace DoomLex

/-- A switch. -/
inductive Switch where
  | verbose | config | noColor | help | version
  | language | format | line | showWhitespace | jobs | keywords | path | force
deriving DecidableEq, Repr

/-! ## Values -/

/-- What a switch takes as its value. -/
inductive Operand where
  /-- Nothing: the switch is just on. -/
  | nothing
  | text
  | path
  /-- The number of a line, from one. -/
  | lineNumber
  | jobCount
deriving DecidableEq, Repr

/-- The number below a bound that a text writes in decimal digits, maybe after a plus. -/
def Text.natural? (bound : Nat) (t : Text) : Option Nat :=
  let digits := if t.head? = some '+' then t.drop 1 else t
  let n := numberOf 10 digits
  if digits ≠ [] ∧ digits.all isDigit ∧ n < bound then some n else none

namespace Operand

/-- Reads the number of a line. -/
def lineNumber? (t : Text) : Option Nat := (Text.natural? UInt64.size t).filter (0 < ·)

/-- Reads a number of jobs; zero may be written with a minus. -/
def jobCount? : Text → Option UInt32
  | '-' :: zeros => if zeros ≠ [] ∧ zeros.all (· == '0') then some 0 else none
  | t => (Text.natural? UInt32.size t).map UInt32.ofNat

/-- Whether a text is such a value. A path is spelt by at least one character. -/
def admits : Operand → Text → Bool
  | nothing, t => t.isEmpty
  | text, _ => true
  | path, t => !t.isEmpty
  | lineNumber, t => (lineNumber? t).isSome
  | jobCount, t => (jobCount? t).isSome

end Operand

namespace Switch

/-- What a switch takes as its value. -/
def operand : Switch → Operand
  | config | path => .path
  | language | format => .text
  | line => .lineNumber
  | jobs => .jobCount
  | verbose | noColor | help | version | showWhitespace | keywords | force => .nothing

/-! ## Spelling -/

/-- What follows the two dashes. -/
def long : Switch → String
  | verbose => "verbose"
  | config => "config"
  | noColor => "no-color"
  | help => "help"
  | version => "version"
  | language => "language"
  | format => "format"
  | line => "line"
  | showWhitespace => "show-whitespace"
  | jobs => "jobs"
  | keywords => "keywords"
  | path => "path"
  | force => "force"

/-- The letter that may follow a single dash. -/
def letter? : Switch → Option Char
  | verbose => some 'v'
  | config => some 'c'
  | noColor => none
  | help => some 'h'
  | version => some 'V'
  | language => some 'l'
  | format => some 'F'
  | line => none
  | showWhitespace => some 'w'
  | jobs => some 'j'
  | keywords => some 'k'
  | path => some 'p'
  | force => some 'f'

/-- The variable of the environment that may stand in for a switch. -/
def environmentName? : Switch → Option String
  | verbose => some "DTKT_VERBOSE"
  | config => some "DTKT_CONFIG"
  | noColor => some "DTKT_NO_COLOR"
  | _ => none

/-! ## Places -/

/-- The switches that may stand before and after a command. -/
def everywhere : List Switch := [verbose, config, noColor, help, version]

/-- The switches that are for a command alone. -/
def ofCommand : Command → List Switch
  | .tokens => [language, format, line, showWhitespace]
  | .check => [language, jobs, format]
  | .stats => [language, format]
  | .languages => [keywords, format]
  | .init => [path, force]

/-- The switches that may stand after a command, or before one. -/
def allowed (command : Option Command) : List Switch := (command.map ofCommand).getD [] ++ everywhere

/-- The allowed switch of a long spelling. -/
def ofLong? (command : Option Command) (t : Text) : Option Switch :=
  (allowed command).find? fun s => s.long.toList == t

/-- The allowed switch of a letter. -/
def ofLetter? (command : Option Command) (c : Char) : Option Switch :=
  (allowed command).find? fun s => s.letter? == some c

end Switch

end DoomLex
