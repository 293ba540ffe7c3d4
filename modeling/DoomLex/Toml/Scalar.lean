/-
Numbers, truth values and moments of TOML documents: the forms that a run of letters, digits and
signs may have.
-/
import DoomLex.Text.Digits
import DoomLex.Toml.Basic

namespace DoomLex.Toml

/-! ## Digits -/

/-- Whether single underscores between digits are all that a text has besides digits; `started` if a
digit came just before. -/
def underscored (digit : Char → Bool) (started : Bool) : Text → Bool
  | [] => started
  | c :: t =>
    if digit c then underscored digit true t
    else c == '_' && started && (t.head?.any digit) && underscored digit false t

/-- A run of digits with underscores between them. -/
def isDigits (t : Text) : Bool := underscored Text.isDigit false t

/-- A run of digits with underscores that does not start with a needless zero. -/
def isWhole (t : Text) : Bool := isDigits t && (t.head? != some '0' || t.length == 1)

/-- The number that digits in a base write, underscores apart. -/
def numberOf (base : Nat) (t : Text) : Nat := Text.numberOf base (t.filter (· != '_'))

/-- A text without a sign at its start, and whether there is a minus. -/
def unsigned : Text → Bool × Text
  | '-' :: t => (true, t)
  | '+' :: t => (false, t)
  | t => (false, t)

/-! ## Integers and fractions -/

/-- An integer of 64 bits. -/
def boundedInteger? (i : Int) : Option Toml :=
  if -integerBound ≤ i ∧ i < integerBound then some (.integer i) else none

/-- Reads an integer. -/
def integer? (t : Text) : Option Toml :=
  match t with
  | '0' :: 'x' :: digits =>
    if underscored Text.isHexDigit false digits then boundedInteger? (numberOf 16 digits) else none
  | '0' :: 'o' :: digits =>
    if underscored (fun c => '0' ≤ c && c ≤ '7') false digits then boundedInteger? (numberOf 8 digits)
    else none
  | '0' :: 'b' :: digits =>
    if underscored (fun c => c == '0' || c == '1') false digits then boundedInteger? (numberOf 2 digits)
    else none
  | t =>
    let (negative, digits) := unsigned t
    if isWhole digits then
      boundedInteger? (if negative then -(numberOf 10 digits : Int) else numberOf 10 digits)
    else none

/-- The parts of a number with a fraction or an exponent, as they are spelt. -/
structure Fraction where
  negative : Bool
  /-- The digits before the point. -/
  whole : Text
  /-- The point and the digits after it. -/
  part : Text
  /-- The letter, the sign and the digits of the exponent. -/
  exponent : Text

namespace Fraction

/-- Cuts a text at the first point and the first letter of an exponent. -/
def ofText (t : Text) : Fraction :=
  let (negative, t) := unsigned t
  let mantissa := t.takeWhile fun c => c != 'e' && c != 'E'
  let whole := mantissa.takeWhile (· != '.')
  ⟨negative, whole, mantissa.drop whole.length, t.drop mantissa.length⟩

/-- Whether the parts are those of a number. -/
def isValid (f : Fraction) : Bool :=
  isWhole f.whole && (f.part ≠ [] || f.exponent ≠ []) && (f.part = [] || isDigits (f.part.drop 1)) &&
    (f.exponent = [] || isDigits (unsigned (f.exponent.drop 1)).2)

/-- The bound of exponents: digits after those that reach it do not count. -/
def exponentBound : Nat := 65536

/-- The number of the digits of an exponent. -/
def exponentOf (digits : Text) : Nat :=
  digits.foldl (fun n c => if n < exponentBound then n * 10 + Text.digitValue c else n) 0

/-- The power of ten that the digits, taken together as a whole number, are to be multiplied by. -/
def scale (f : Fraction) : Int :=
  let (negative, digits) := unsigned (f.exponent.drop 1)
  let n : Int := exponentOf (digits.filter (· != '_'))
  let places : Int := ((f.part.drop 1).filter (· != '_')).length
  (if negative then -n else n) - places

/-- The least number that is nearer to the power of two after the greatest number of double precision
than to that one. -/
def infinityBound : Nat := Nat.pow 2 1024 - Nat.pow 2 970

/-- Whether the number is at least the bound from which on double precision has infinity alone. -/
def isInfinite (f : Fraction) : Bool :=
  let digits := numberOf 10 (f.whole ++ f.part.drop 1)
  if 0 ≤ f.scale then infinityBound ≤ digits * Nat.pow 10 f.scale.natAbs
  else infinityBound * Nat.pow 10 f.scale.natAbs ≤ digits

end Fraction

/-- Whether the text is a number with a fraction or an exponent, infinity or no number. A number too
great for double precision is none, though one too far below zero counts as infinity. -/
def isFloat (t : Text) : Bool :=
  let special := (unsigned t).2
  let f := Fraction.ofText t
  special = "inf".toList || special = "nan".toList || (f.isValid && (f.negative || !f.isInfinite))

/-! ## Scalars -/

/-- A character of numbers, truth values and moments. -/
def isScalarChar (c : Char) : Bool := c.isAlphanum || c == '+' || c == '-' || c == '_' || c == '.' || c == ':'

/-- The value of a run. -/
def scalarOf? (t : Text) : Option Toml :=
  if t = "true".toList then some (.boolean true)
  else if t = "false".toList then some (.boolean false)
  else
    match Moment.ofText? t with
    | some m => some (.moment m)
    | none => if isFloat t then some .float else integer? t

/-- Reads a number, truth value or moment; a blank may stand between a date and a time. -/
def readScalar (t : Text) : Option (Toml × Text) :=
  let run := t.takeWhile isScalarChar
  let rest := t.drop run.length
  let time := (rest.drop 1).takeWhile isScalarChar
  match if rest.head? = some ' ' then Moment.ofParts? run time else none with
  | some m => some (.moment m, rest.drop (1 + time.length))
  | none => (scalarOf? run).map fun v => (v, rest)

end DoomLex.Toml
