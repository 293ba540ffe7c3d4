/-
Numbers and truth values are read as they were written. A run of digits is no moment and no number with a fraction
or an exponent, for it lacks the signs of those, and without a needless zero in front it is the integer that its
digits write.
-/
import DoomLex.Toml.Scalar
import DoomLex.Proofs.Toml.Quoting
import Mathlib.Data.List.TakeWhile

namespace DoomLex

namespace Text

variable {c d : Char} {t : Text}

/-! ## Digits of numbers -/

theorem isDigit_digitChar {n : Nat} (h : n < 10) : isDigit (Nat.digitChar n) = true := by
  match n, h with
  | 0, _ | 1, _ | 2, _ | 3, _ | 4, _ | 5, _ | 6, _ | 7, _ | 8, _ | 9, _ => rfl

theorem numeral_eq (n : Nat) :
    numeral n = if n < 10 then [Nat.digitChar n] else numeral (n / 10) ++ [Nat.digitChar (n % 10)] := by
  rw [numeral, numeral, Nat.toDigits_eq_if (by decide)]

/-- A number is written in digits, the first of which is no zero but in that of zero. -/
theorem exists_numeral_eq (n : Nat) :
    ∃ c t, numeral n = c :: t ∧ (∀ d ∈ c :: t, isDigit d = true) ∧ (c = '0' → t = []) := by
  induction n using Nat.strongRecOn with
  | ind n ih =>
    rw [numeral_eq]
    split
    · rename_i hn
      exact ⟨Nat.digitChar n, [], rfl, by simp [isDigit_digitChar hn], fun _ => rfl⟩
    · rename_i hn
      obtain ⟨c, t, heq, hdigits, hzero⟩ := ih (n / 10) (by omega)
      refine ⟨c, t ++ [Nat.digitChar (n % 10)], by rw [heq]; rfl, ?_, fun hc => ?_⟩
      · intro d hd
        rw [← List.cons_append, List.mem_append, List.mem_singleton] at hd
        rcases hd with hd | rfl
        · exact hdigits d hd
        · exact isDigit_digitChar (Nat.mod_lt n (by decide))
      · -- only zero has a zero in front, and ten or more has more before the last digit
        have hvalue := numberOf_numeral (n / 10)
        rw [heq, hzero hc, hc] at hvalue
        have : n / 10 = 0 := hvalue.symm
        omega

theorem notMem_of_isDigit (h : ∀ d ∈ t, isDigit d = true) (hc : isDigit c = false) : c ∉ t := fun hmem => by
  rw [h c hmem] at hc
  cases hc

end Text

/-! ## Runs of digits -/

section Digits

open Text (isDigit notMem_of_isDigit)

variable {c : Char} {t : Text}

theorem Date.ofText?_of_isDigit (h : ∀ d ∈ t, isDigit d = true) : Date.ofText? t = none := by
  rw [Option.eq_none_iff_forall_ne_some]
  intro d hd
  obtain ⟨year, -, hd⟩ := Option.bind_eq_some_iff.1 hd
  obtain ⟨month, -, hd⟩ := Option.bind_eq_some_iff.1 hd
  obtain ⟨day, -, hd⟩ := Option.bind_eq_some_iff.1 hd
  obtain ⟨hdash, -⟩ := (Option.ite_none_right_eq_some.1 hd).1
  exact notMem_of_isDigit h rfl (List.mem_of_getElem? hdash)

theorem Time.ofText?_of_isDigit (h : ∀ d ∈ t, isDigit d = true) : Time.ofText? t = none := by
  rw [Option.eq_none_iff_forall_ne_some]
  intro m hm
  obtain ⟨⟨hour, minute⟩, -, hm⟩ := Option.bind_eq_some_iff.1 hm
  obtain ⟨second, -, hm⟩ := Option.bind_eq_some_iff.1 hm
  obtain ⟨nanosecond, -, hm⟩ := Option.bind_eq_some_iff.1 hm
  obtain ⟨hcolon, -⟩ := (Option.ite_none_right_eq_some.1 hm).1
  exact notMem_of_isDigit h rfl (List.mem_of_getElem? hcolon)

theorem Moment.ofText?_of_isDigit (h : ∀ d ∈ t, isDigit d = true) : Moment.ofText? t = none := by
  have hletter : ¬ (t[10]? = some 'T' ∨ t[10]? = some 't') := by
    rintro (hmem | hmem) <;> exact notMem_of_isDigit h rfl (List.mem_of_getElem? hmem)
  rw [Moment.ofText?, Date.ofText?_of_isDigit h, Time.ofText?_of_isDigit h, if_neg hletter]
  rfl

namespace Toml

theorem unsigned_of_isDigit (h : ∀ d ∈ t, isDigit d = true) : unsigned t = (false, t) := by
  unfold unsigned
  split
  · exact absurd List.mem_cons_self (notMem_of_isDigit h rfl)
  · exact absurd List.mem_cons_self (notMem_of_isDigit h rfl)
  · rfl

theorem isFloat_of_isDigit (h : ∀ d ∈ t, isDigit d = true) : isFloat t = false := by
  have hinf : t ≠ "inf".toList := by
    rintro rfl
    exact absurd (h 'i' (by decide)) (by decide)
  have hnan : t ≠ "nan".toList := by
    rintro rfl
    exact absurd (h 'n' (by decide)) (by decide)
  have hmantissa : t.takeWhile (fun c => c != 'e' && c != 'E') = t := by
    refine List.takeWhile_eq_self_iff.2 fun c hc => ?_
    rw [Bool.and_eq_true, bne_iff_ne, bne_iff_ne]
    exact ⟨ne_of_class isDigit (h c hc) rfl, ne_of_class isDigit (h c hc) rfl⟩
  have hwhole : t.takeWhile (· != '.') = t := by
    refine List.takeWhile_eq_self_iff.2 fun c hc => ?_
    rw [bne_iff_ne]
    exact ne_of_class isDigit (h c hc) rfl
  have hvalid : (Fraction.ofText t).isValid = false := by
    simp [Fraction.isValid, Fraction.ofText, unsigned_of_isDigit h, hmantissa, hwhole]
  simp only [isFloat, unsigned_of_isDigit h, hvalid, decide_eq_false hinf, decide_eq_false hnan,
    Bool.false_and, Bool.or_false]

theorem underscored_of_isDigit (started : Bool) (h : ∀ d ∈ t, isDigit d = true) (hne : t ≠ [] ∨ started = true) :
    underscored isDigit started t = true := by
  induction t generalizing started with
  | nil => exact hne.resolve_left fun h => h rfl
  | cons c t ih =>
    obtain ⟨hc, ht⟩ := List.forall_mem_cons.1 h
    rw [underscored, if_pos hc]
    exact ih true ht (.inr rfl)

theorem integer?_numeral {n : Nat} (h : n < integerBound) : integer? (Text.numeral n) = some (.integer n) := by
  obtain ⟨c, t, heq, hdigits, hzero⟩ := Text.exists_numeral_eq n
  have hvalue : numberOf 10 (c :: t) = n := by
    have hplain : (c :: t).filter (· != '_') = c :: t := by
      refine List.filter_eq_self.2 fun d hd => ?_
      rw [bne_iff_ne]
      exact ne_of_class isDigit (hdigits d hd) rfl
    rw [numberOf, hplain, ← heq, Text.numberOf_numeral]
  have hwhole : isWhole (c :: t) = true := by
    rw [isWhole, isDigits, underscored_of_isDigit false hdigits (.inl (List.cons_ne_nil c t)), Bool.true_and]
    by_cases hc : c = '0'
    · simp [hzero hc]
    · simp [hc]
  have hbound : boundedInteger? n = some (.integer n) := by
    rw [boundedInteger?, if_pos (by omega)]
  have hletter : ∀ d u, isDigit d = false → c :: t ≠ '0' :: d :: u := by
    rintro d u hd hsplit
    exact notMem_of_isDigit hdigits hd (hsplit ▸ List.mem_cons_of_mem '0' List.mem_cons_self)
  rw [heq]
  unfold integer?
  split
  · exact absurd (by assumption) (hletter 'x' _ rfl)
  · exact absurd (by assumption) (hletter 'o' _ rfl)
  · exact absurd (by assumption) (hletter 'b' _ rfl)
  · simp only [unsigned_of_isDigit hdigits, hwhole, hvalue, if_true, Bool.false_eq_true, if_false]
    exact hbound

theorem scalarOf?_numeral {n : Nat} (h : n < integerBound) :
    scalarOf? (Text.numeral n) = some (.integer n) := by
  obtain ⟨c, t, heq, hdigits, -⟩ := Text.exists_numeral_eq n
  rw [← heq] at hdigits
  have htrue : Text.numeral n ≠ "true".toList := fun hword =>
    notMem_of_isDigit hdigits rfl (hword ▸ List.mem_cons_self : 't' ∈ Text.numeral n)
  have hfalse : Text.numeral n ≠ "false".toList := fun hword =>
    notMem_of_isDigit hdigits rfl (hword ▸ List.mem_cons_self : 'f' ∈ Text.numeral n)
  simp only [scalarOf?, if_neg htrue, if_neg hfalse, Moment.ofText?_of_isDigit hdigits,
    isFloat_of_isDigit hdigits, integer?_numeral h, Bool.false_eq_true, if_false]

/-! ## Scalars -/

variable {run rest : Text} {v : Toml}

/-- A run is read up to a character that is none of scalars, where no time may follow. -/
theorem readScalar_append (hrun : ∀ c ∈ run, isScalarChar c = true)
    (hrest : ∀ c ∈ rest.head?, isScalarChar c = false ∧ c ≠ ' ') (h : scalarOf? run = some v) :
    readScalar (run ++ rest) = some (v, rest) := by
  obtain ⟨htake, -⟩ := span_append hrun fun c hc => (hrest c hc).1
  have hblank : rest.head? ≠ some ' ' := fun hhead => (hrest ' ' hhead).2 rfl
  simp only [readScalar, htake, List.drop_left, if_neg hblank, h, Option.map_some]

end Toml

end Digits

end DoomLex
