/-
Classes of characters against each other: which of them exclude which. Of the characters of ASCII all can be
looked at, and of the blanks, of which there are not many either.
-/
import DoomLex.Text.Alphabetic
import DoomLex.Text.Blank
import DoomLex.Text.Digits

namespace DoomLex.Text

/-! ## ASCII -/

/-- What holds of the first 128 characters holds of every character of ASCII. -/
theorem forall_ascii {p : Char → Bool} (h : (List.range 128).all (fun n => p (Char.ofNat n)) = true) {c : Char}
    (hc : c.toNat < 128) : p c = true := by
  have hp := List.all_eq_true.1 h c.toNat (List.mem_range.2 hc)
  rwa [Char.ofNat_toNat] at hp

theorem toNat_lt_of_isDigit {c : Char} (h : isDigit c = true) : c.toNat < 128 := by
  unfold isDigit at h
  obtain ⟨-, hle⟩ := (Bool.and_eq_true ..).mp h
  have hle : c.toNat ≤ 57 := UInt32.le_iff_toNat_le.1 (of_decide_eq_true hle)
  omega

theorem isAlphanumeric_of_isDigit {c : Char} (h : isDigit c = true) : isAlphanumeric c = true := by
  have hall := forall_ascii (p := fun c => !isDigit c || isAlphanumeric c) (by decide +kernel)
    (toNat_lt_of_isDigit h)
  rwa [h, Bool.not_true, Bool.false_or] at hall

theorem isAlphanumeric_of_isHexDigit {c : Char} (h : isHexDigit c = true) : isAlphanumeric c = true := by
  have hascii : c.toNat < 128 := by
    unfold isHexDigit at h
    rw [Bool.or_eq_true, Bool.or_eq_true] at h
    rcases h with (h | h) | h
    · exact toNat_lt_of_isDigit h
    all_goals
      rw [Bool.and_eq_true, decide_eq_true_eq, decide_eq_true_eq] at h
      exact Nat.lt_of_le_of_lt (UInt32.le_iff_toNat_le.1 h.2) (by decide)
  have hall := forall_ascii (p := fun c => !isHexDigit c || isAlphanumeric c) (by decide +kernel) hascii
  rwa [h, Bool.not_true, Bool.false_or] at hall

/-- No digit starts a name. -/
theorem isDigit_of_letter {c : Char} (h : isAlphabetic c = true ∨ c = '_') : isDigit c = false := by
  rcases h with h | rfl
  · cases hdigit : isDigit c with
    | false => rfl
    | true =>
      have hall := forall_ascii (p := fun c => !isDigit c || !isAlphabetic c) (by decide +kernel)
        (toNat_lt_of_isDigit hdigit)
      simp [hdigit, h] at hall
  · rfl

/-! ## Blanks -/

/-- The codes of the blank characters. -/
def blankCodes : List Nat :=
  List.range' 9 5 ++ List.range' 0x2000 11 ++
    [0x20, 0x85, 0xa0, 0x1680, 0x2028, 0x2029, 0x202f, 0x205f, 0x3000]

theorem toNat_mem_blankCodes {c : Char} (h : isBlank c = true) : c.toNat ∈ blankCodes := by
  have hle : ∀ a b : Char, a ≤ b ↔ a.toNat ≤ b.toNat := fun _ _ => UInt32.le_iff_toNat_le
  have heq : ∀ a b : Char, a = b ↔ a.toNat = b.toNat := fun _ _ => ⟨congrArg Char.toNat, Char.toNat_inj.1⟩
  simp only [isBlank, Bool.or_eq_true, Bool.and_eq_true, beq_iff_eq, decide_eq_true_eq, hle, heq,
    Char.reduceToNat] at h
  simp only [blankCodes, List.mem_append, List.mem_range'_1, List.mem_cons, List.not_mem_nil]
  omega

/-- What holds of each of the blanks holds of a blank. -/
theorem forall_blank {p : Char → Bool} (h : blankCodes.all (fun n => p (Char.ofNat n)) = true) {c : Char}
    (hc : isBlank c = true) : p c = true := by
  have hp := List.all_eq_true.1 h _ (toNat_mem_blankCodes hc)
  rwa [Char.ofNat_toNat] at hp

theorem isBlank_of_isAlphanumeric {c : Char} (h : isAlphanumeric c = true) : isBlank c = false := by
  cases hblank : isBlank c with
  | false => rfl
  | true =>
    have hall := forall_blank (p := fun c => !isAlphanumeric c) (by decide +kernel) hblank
    simp [h] at hall

end DoomLex.Text
