/-
Numbers of the dialects with braces: decimal digits, hexadecimal digits after `0x`, fractions, and
in scripts exponents. A number goes on to the next blank or delimiter (a point within a decimal
number apart); if it is not of one of these forms by then, it is an error. A zero before any other
character makes a misspelt name.
-/
import DoomLex.Grammar.Dialect
import DoomLex.Text.Digits

namespace DoomLex

/-- How much of a number has been read. -/
inductive Numeral where
  /-- A zero alone. -/
  | zero
  | decimal
  /-- The zero and the letter before hexadecimal digits. -/
  | hexMark
  | hex
  /-- Decimal digits and a point, and any digits after it. -/
  | fraction
  /-- A number and the letter before its exponent. -/
  | exponentMark
  | exponentSign
  | exponent
  /-- No number can come of it. -/
  | malformed
  /-- No name can start so. -/
  | misspelt
deriving DecidableEq, Repr

namespace Numeral

/-- Digits carry a number on, a blank or delimiter ends it, and all else spoils it. -/
def onDigits (d : Dialect) (digit : Bool) (stay : Numeral) (c : Char) : Option Numeral :=
  if digit then some stay else if d.isBreak c then none else some malformed

/-- Whether the character starts an exponent. -/
def startsExponent (d : Dialect) (c : Char) : Bool := d.exponents && (c == 'e' || c == 'E')

/-- The number with one more character; none if it ends before the character. -/
def step (d : Dialect) : Numeral → Char → Option Numeral
  | zero, c =>
    if c = 'x' ∨ c = 'X' then some hexMark
    else if c = '.' then some fraction
    else if d.isBreak c then none
    else if Text.isDigit c then some decimal
    else some misspelt
  | decimal, c =>
    if startsExponent d c then some exponentMark
    else if c = '.' then some fraction
    else onDigits d (Text.isDigit c) decimal c
  | hexMark, c => onDigits d (Text.isHexDigit c) hex c
  | hex, c => onDigits d (Text.isHexDigit c) hex c
  | fraction, c =>
    if startsExponent d c then some exponentMark else onDigits d (Text.isDigit c) fraction c
  | exponentMark, c =>
    if c = '+' ∨ c = '-' then some exponentSign else onDigits d (Text.isDigit c) exponent c
  | exponentSign, c => onDigits d (Text.isDigit c) exponent c
  | exponent, c => onDigits d (Text.isDigit c) exponent c
  | malformed, c => if d.isBreak c then none else some malformed
  | misspelt, c => if d.isBreak c then none else some misspelt

/-- The kind of a number that ends. -/
def kind : Numeral → Kind
  | zero | decimal => .decimal
  | hex => .hex
  | fraction | exponent => .float
  | hexMark | exponentMark | exponentSign | malformed => .errorNumber
  | misspelt => .errorIdentifier

end Numeral

end DoomLex
