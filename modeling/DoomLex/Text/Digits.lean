/-
Digits in ASCII, decimal and hexadecimal, and the numbers that they write.
-/
import DoomLex.Text.Basic

namespace DoomLex.Text

/-- A decimal digit in ASCII. -/
def isDigit (c : Char) : Bool := '0' ≤ c && c ≤ '9'

/-- A hexadecimal digit in ASCII, of either case. -/
def isHexDigit (c : Char) : Bool := isDigit c || ('a' ≤ c && c ≤ 'f') || ('A' ≤ c && c ≤ 'F')

/-- The value of a hexadecimal digit. -/
def digitValue (c : Char) : Nat :=
  if isDigit c then c.toNat - '0'.toNat
  else if 'a' ≤ c then c.toNat - 'a'.toNat + 10
  else c.toNat - 'A'.toNat + 10

/-- The number that digits write in a base. -/
def numberOf (base : Nat) (digits : Text) : Nat :=
  digits.foldl (fun n c => n * base + digitValue c) 0

/-- The decimal digits of a number. -/
def numeral (n : Nat) : Text := Nat.toDigits 10 n

/-- The digits of a number in a base, with zeros in front up to a width. -/
def padded (base width n : Nat) : Text :=
  let digits := Nat.toDigits base n
  List.replicate (width - digits.length) '0' ++ digits

theorem digitValue_digitChar {d : Nat} (h : d < 10) : digitValue (Nat.digitChar d) = d := by
  match d, h with
  | 0, _ | 1, _ | 2, _ | 3, _ | 4, _ | 5, _ | 6, _ | 7, _ | 8, _ | 9, _ => decide

theorem numberOf_append_singleton (base : Nat) (digits : Text) (c : Char) :
    numberOf base (digits ++ [c]) = numberOf base digits * base + digitValue c := by
  simp [numberOf]

/-- The digits of a number write it. -/
theorem numberOf_numeral (n : Nat) : numberOf 10 (numeral n) = n := by
  induction n using Nat.strongRecOn with
  | ind n ih =>
    unfold numeral at ih ⊢
    rw [Nat.toDigits_eq_if (by decide)]
    split
    · next h => simp [numberOf, digitValue_digitChar h]
    · next h =>
      rw [numberOf_append_singleton, ih (n / 10) (by omega), digitValue_digitChar (by omega)]
      omega

end DoomLex.Text
