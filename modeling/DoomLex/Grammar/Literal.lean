/-
Double-quoted literals. A backslash takes the next character along; after `\x`, and in wide literals
after `\u`, hexadecimal digits have to follow, two and four of them. A literal that lacks one of
them is bad: it runs on to its closing quote all the same, still passing over escaped characters.
-/
import DoomLex.Kind
import DoomLex.Text.Digits

namespace DoomLex

/-- Where in a literal the scan stands. -/
inductive Literal where
  /-- Between characters of a literal with no bad escape so far. -/
  | body
  /-- After a backslash. -/
  | escape
  /-- In an escape that lacks that many more digits. -/
  | digits (missing : Nat)
  /-- Between characters of a literal with a bad escape. -/
  | bad
  /-- After a backslash in a literal with a bad escape. -/
  | badEscape
deriving DecidableEq, Repr

namespace Literal

/-- What a character does to a literal. -/
inductive Outcome where
  | stay (next : Literal)
  | again (next : Literal)
  /-- The character closes the literal. -/
  | closed (kind : Kind)

/-- The number of digits that an escape letter asks for. -/
def digitsAfter (wide : Bool) (c : Char) : Option Nat :=
  if c = 'x' ∨ c = 'X' then some 2
  else if wide ∧ (c = 'u' ∨ c = 'U') then some 4
  else none

/-- Goes on by one character. -/
def step (wide : Bool) : Literal → Char → Outcome
  | body, c => if c = '\\' then .stay escape else if c = '"' then .closed .string else .stay body
  | escape, c =>
    match digitsAfter wide c with
    | some n => .stay (digits n)
    | none => .stay body
  | digits missing, c =>
    if Text.isHexDigit c then .stay (if 1 < missing then digits (missing - 1) else body) else .again bad
  | bad, c => if c = '"' then .closed .errorEscape else if c = '\\' then .stay badEscape else .stay bad
  | badEscape, _ => .stay bad

/-- The kind of a literal that its line leaves open. -/
def openKind : Literal → Kind
  | body | escape | digits _ => .errorString
  | bad | badEscape => .errorEscape

end Literal

end DoomLex
