/-
The grammar of the numbers of the dialects with braces. The scan of a number carries no more than one of ten
states from character to character, and what kind it makes of a number is read off the last one; that it makes
a decimal number, a hexadecimal number or a fraction of exactly the texts of these forms comes from what each
state says of all the characters up to there.
-/
import DoomLex.Grammar.Numeral
import DoomLex.Proofs.Text.Alphabets
import DoomLex.Proofs.Text.Characters
import Mathlib.Data.List.Induction
import Mathlib.Tactic.SplitIfs

namespace DoomLex

theorem Alphabet.contains_of_isAlphanumeric {marks : String}
    (hmarks : (marks.toList.all fun x => !Text.isAlphanumeric x) = true) {c : Char}
    (h : Text.isAlphanumeric c = true) : (ofString marks).contains c = false := by
  by_contra hc
  rw [Bool.not_eq_false] at hc
  have hmark := List.all_eq_true.1 hmarks c (contains_ofString.1 hc)
  rw [h] at hmark
  cases hmark

/-- The characters of names and numbers are no punctuation. -/
theorem Dialect.contains_of_isAlphanumeric (d : Dialect) {c : Char} (h : Text.isAlphanumeric c = true) :
    d.separators.contains c = false ∧ d.delimiters.contains c = false := by
  cases d <;>
    exact ⟨Alphabet.contains_of_isAlphanumeric (by decide) h, Alphabet.contains_of_isAlphanumeric (by decide) h⟩

theorem Dialect.isBreak_of_isAlphanumeric (d : Dialect) {c : Char} (h : Text.isAlphanumeric c = true) :
    d.isBreak c = false := by
  rw [isBreak, Text.isBlank_of_isAlphanumeric h, (d.contains_of_isAlphanumeric h).2]
  rfl

theorem Dialect.isBreak_newline (d : Dialect) : d.isBreak '\n' = true := rfl

namespace Numeral

/-! ## Forms of numbers -/

/-- Decimal digits. -/
def IsDecimal (w : Text) : Prop := w ≠ [] ∧ ∀ c ∈ w, Text.isDigit c = true

/-- Hexadecimal digits after `0x`. -/
def IsHex (w : Text) : Prop :=
  ∃ x digits, w = '0' :: x :: digits ∧ (x = 'x' ∨ x = 'X') ∧ digits ≠ [] ∧
    ∀ c ∈ digits, Text.isHexDigit c = true

/-- Decimal digits, a point, and more digits or none. -/
def IsFraction (w : Text) : Prop :=
  ∃ whole part, w = whole ++ '.' :: part ∧ IsDecimal whole ∧ ∀ c ∈ part, Text.isDigit c = true

/-- A number with an exponent, which may have a sign. A zero alone takes none. -/
def IsExponential (w : Text) : Prop :=
  ∃ mantissa e sign digits, w = mantissa ++ e :: (sign ++ digits) ∧
    (IsFraction mantissa ∨ IsDecimal mantissa ∧ mantissa ≠ ['0']) ∧ (e = 'e' ∨ e = 'E') ∧
    (sign = [] ∨ sign = ['+'] ∨ sign = ['-']) ∧ IsDecimal digits

/-- The numbers that are no whole ones; patches have no exponents. -/
def IsFloat (d : Dialect) (w : Text) : Prop := IsFraction w ∨ d = .script ∧ IsExponential w

/-! ## Reading a number -/

/-- The state after a text that starts a number, if the number goes on to its end. -/
def reads (d : Dialect) : Text → Option Numeral
  | [] => none
  | c :: t =>
    if c = '0' then t.foldlM (step d) zero
    else if Text.isDigit c then t.foldlM (step d) decimal
    else none

/-- The kind that the scan makes of a text as a number. -/
def readKind (d : Dialect) (w : Text) : Option Kind := (reads d w).map kind

variable {d : Dialect} {n n' : Numeral} {w t : Text} {c : Char}

theorem reads_append (hw : w ≠ []) (t : Text) :
    reads d (w ++ t) = (reads d w).bind fun n => t.foldlM (step d) n := by
  obtain ⟨c, w, rfl⟩ := List.exists_cons_of_ne_nil hw
  simp only [List.cons_append, reads, List.foldlM_append]
  split_ifs <;> rfl

theorem reads_concat (h : reads d w = some n) (hstep : n.step d c = some n') :
    reads d (w ++ [c]) = some n' := by
  have hw : w ≠ [] := by
    rintro rfl
    cases h
  rw [reads_append hw, h, Option.bind_some, List.foldlM_cons, hstep]
  rfl

theorem exists_digit_of_reads (h : reads d w = some n) : ∃ c t, w = c :: t ∧ Text.isDigit c = true := by
  cases w with
  | nil => cases h
  | cons c t =>
    simp only [reads] at h
    split_ifs at h with hzero hdigit
    · exact ⟨c, t, rfl, hzero ▸ rfl⟩
    · exact ⟨c, t, rfl, hdigit⟩

theorem foldlM_of_stays (h : ∀ c ∈ t, n.step d c = some n) : t.foldlM (step d) n = some n := by
  induction t with
  | nil => rfl
  | cons c t ih =>
    obtain ⟨hc, ht⟩ := List.forall_mem_cons.1 h
    rw [List.foldlM_cons, hc]
    exact ih ht

/-! ## Steps on digits -/

section Steps

theorem startsExponent_iff : startsExponent d c = true ↔ d = .script ∧ (c = 'e' ∨ c = 'E') := by
  cases d <;> simp [startsExponent, Dialect.exponents]

theorem eq_of_onDigits {digit : Bool} {stay : Numeral} (h : onDigits d digit stay c = some n) :
    digit = true ∧ n = stay ∨ n = malformed := by
  unfold onDigits at h
  split_ifs at h with hdigit hbreak
  · exact .inl ⟨hdigit, (Option.some.inj h).symm⟩
  · exact .inr (Option.some.inj h).symm

/-- A digit is none of the other characters of numbers. -/
theorem ne_of_isDigit (hc : Text.isDigit c = true) :
    c ≠ 'x' ∧ c ≠ 'X' ∧ c ≠ '.' ∧ c ≠ 'e' ∧ c ≠ 'E' ∧ c ≠ '+' ∧ c ≠ '-' := by
  refine ⟨?_, ?_, ?_, ?_, ?_, ?_, ?_⟩ <;> (rintro rfl; exact absurd hc (by decide))

/-- The state after a digit, which ends no number. -/
def afterDigit : Numeral → Numeral
  | zero | decimal => decimal
  | hexMark | hex => hex
  | fraction => fraction
  | exponentMark | exponentSign | exponent => exponent
  | malformed => malformed
  | misspelt => misspelt

theorem step_of_isDigit (hc : Text.isDigit c = true) (n : Numeral) : n.step d c = some n.afterDigit := by
  obtain ⟨hx, hX, hpoint, he, hE, hplus, hminus⟩ := ne_of_isDigit hc
  have hhex : Text.isHexDigit c = true := by simp [Text.isHexDigit, hc]
  have hbreak := d.isBreak_of_isAlphanumeric (Text.isAlphanumeric_of_isDigit hc)
  cases n <;> simp [step, afterDigit, onDigits, startsExponent, *]

theorem step_of_isHexDigit (hc : Text.isHexDigit c = true) :
    hexMark.step d c = some hex ∧ hex.step d c = some hex := by
  simp [step, onDigits, hc]

theorem step_point : zero.step d '.' = some fraction ∧ decimal.step d '.' = some fraction := by
  cases d <;> exact ⟨rfl, rfl⟩

theorem step_newline (n : Numeral) : n.step d '\n' = none := by
  cases n <;> cases d <;> rfl

end Steps

/-! ## What a form is read as -/

theorem reads_of_isDecimal (h : IsDecimal w) : reads d w = some (if w = ['0'] then zero else decimal) := by
  obtain ⟨hne, hdigits⟩ := h
  obtain ⟨c, t, rfl⟩ := List.exists_cons_of_ne_nil hne
  obtain ⟨hc, ht⟩ := List.forall_mem_cons.1 hdigits
  have hstays : t.foldlM (step d) decimal = some decimal :=
    foldlM_of_stays fun x hx => step_of_isDigit (ht x hx) decimal
  by_cases hzero : c = '0'
  · subst hzero
    cases t with
    | nil => rfl
    | cons x t =>
      obtain ⟨hx, ht⟩ := List.forall_mem_cons.1 ht
      have hstep : zero.step d x = some decimal := step_of_isDigit hx zero
      have hmore : t.foldlM (step d) decimal = some decimal :=
        foldlM_of_stays fun y hy => step_of_isDigit (ht y hy) decimal
      simp [reads, hstep, hmore]
  · simp [reads, hzero, hc, hstays]

theorem reads_of_isHex (h : IsHex w) : reads d w = some hex := by
  obtain ⟨x, digits, rfl, hx, hne, hdigits⟩ := h
  obtain ⟨c, t, rfl⟩ := List.exists_cons_of_ne_nil hne
  obtain ⟨hc, ht⟩ := List.forall_mem_cons.1 hdigits
  have hmark : zero.step d x = some hexMark := if_pos hx
  have hfirst : hexMark.step d c = some hex := (step_of_isHexDigit hc).1
  have hmore : t.foldlM (step d) hex = some hex :=
    foldlM_of_stays fun y hy => (step_of_isHexDigit (ht y hy)).2
  simp [reads, hmark, hfirst, hmore]

theorem reads_of_isFraction (h : IsFraction w) : reads d w = some fraction := by
  obtain ⟨whole, part, rfl, hwhole, hpart⟩ := h
  have hpoint : (if whole = ['0'] then zero else decimal).step d '.' = some fraction := by
    split_ifs
    · exact step_point.1
    · exact step_point.2
  have hmore : part.foldlM (step d) fraction = some fraction :=
    foldlM_of_stays fun y hy => step_of_isDigit (hpart y hy) fraction
  rw [reads_append hwhole.1, reads_of_isDecimal hwhole, Option.bind_some, List.foldlM_cons, hpoint]
  exact hmore

theorem reads_of_isExponential (h : IsExponential w) : reads .script w = some exponent := by
  obtain ⟨mantissa, e, sign, digits, rfl, hmantissa, he, hsign, hne, hdigits⟩ := h
  obtain ⟨c, t, rfl⟩ := List.exists_cons_of_ne_nil hne
  obtain ⟨hc, ht⟩ := List.forall_mem_cons.1 hdigits
  -- the letter takes a fraction and digits other than the one zero to the same state
  have hmark : reads .script (mantissa ++ [e]) = some exponentMark := by
    have hexp : startsExponent .script e = true := startsExponent_iff.2 ⟨rfl, he⟩
    rcases hmantissa with hfraction | ⟨hdecimal, hzero⟩
    · exact reads_concat (reads_of_isFraction hfraction) (if_pos hexp)
    · have hreads := @reads_of_isDecimal .script _ hdecimal
      rw [if_neg hzero] at hreads
      exact reads_concat hreads (if_pos hexp)
  have hmore : t.foldlM (step .script) exponent = some exponent :=
    foldlM_of_stays fun y hy => step_of_isDigit (ht y hy) exponent
  have hassoc : mantissa ++ e :: (sign ++ c :: t) = (mantissa ++ [e]) ++ (sign ++ c :: t) := by simp
  rw [hassoc, reads_append (by simp), hmark, Option.bind_some, List.foldlM_append]
  rcases hsign with rfl | rfl | rfl
  · show (c :: t).foldlM (step .script) exponentMark = _
    rw [List.foldlM_cons, step_of_isDigit hc]
    exact hmore
  all_goals
    show (c :: t).foldlM (step .script) exponentSign = _
    rw [List.foldlM_cons, step_of_isDigit hc]
    exact hmore

/-! ## What a state says of the text before it -/

/-- The texts after which the scan of a number stands in a state; of a malformed number it says nothing. -/
def Shape (d : Dialect) : Numeral → Text → Prop
  | zero, w => w = ['0']
  | decimal, w => IsDecimal w ∧ w ≠ ['0']
  | hexMark, w => ∃ x, w = ['0', x] ∧ (x = 'x' ∨ x = 'X')
  | hex, w => IsHex w
  | fraction, w => IsFraction w
  | exponentMark, w => d = .script ∧ ∃ mantissa e, w = mantissa ++ [e] ∧
      (IsFraction mantissa ∨ IsDecimal mantissa ∧ mantissa ≠ ['0']) ∧ (e = 'e' ∨ e = 'E')
  | exponentSign, w => d = .script ∧ ∃ mantissa e sign, w = mantissa ++ e :: sign ∧
      (IsFraction mantissa ∨ IsDecimal mantissa ∧ mantissa ≠ ['0']) ∧ (e = 'e' ∨ e = 'E') ∧
      (sign = ['+'] ∨ sign = ['-'])
  | exponent, w => d = .script ∧ IsExponential w
  | malformed, _ => True
  | misspelt, w => ∃ c t, w = '0' :: c :: t ∧ c ≠ 'x' ∧ c ≠ 'X' ∧ c ≠ '.' ∧ Text.isDigit c = false ∧
      d.isBreak c = false

section Shapes

theorem forall_mem_concat {p : Char → Prop} (ht : ∀ x ∈ t, p x) (hc : p c) : ∀ x ∈ t ++ [c], p x :=
  List.forall_mem_append.2 ⟨ht, List.forall_mem_singleton.2 hc⟩

theorem IsDecimal.concat (h : IsDecimal w) (hc : Text.isDigit c = true) :
    IsDecimal (w ++ [c]) ∧ w ++ [c] ≠ ['0'] := by
  refine ⟨⟨by simp, forall_mem_concat h.2 hc⟩, ?_⟩
  intro hzero
  have hlen := congrArg List.length hzero
  have hpos := List.length_pos_iff.2 h.1
  rw [List.length_append, List.length_singleton, List.length_singleton] at hlen
  omega

theorem isDecimal_singleton (hc : Text.isDigit c = true) : IsDecimal [c] :=
  ⟨List.cons_ne_nil _ _, List.forall_mem_singleton.2 hc⟩

theorem IsFraction.concat (h : IsFraction w) (hc : Text.isDigit c = true) : IsFraction (w ++ [c]) := by
  obtain ⟨whole, part, rfl, hwhole, hpart⟩ := h
  exact ⟨whole, part ++ [c], by simp, hwhole, forall_mem_concat hpart hc⟩

theorem IsDecimal.point (h : IsDecimal w) : IsFraction (w ++ ['.']) := ⟨w, [], rfl, h, List.forall_mem_nil _⟩

/-- Where a number goes on with digits, only what a digit leads to is to be looked at: any other character leads to a
malformed number, of which nothing is said. -/
theorem shape_of_onDigits {digit : Bool} {stay : Numeral} (hstep : onDigits d digit stay c = some n')
    (hstay : digit = true → Shape d stay t) : Shape d n' t := by
  rcases eq_of_onDigits hstep with ⟨hdigit, rfl⟩ | rfl
  · exact hstay hdigit
  · trivial

theorem shape_after_zero (hstep : zero.step d c = some n') : Shape d n' ['0', c] := by
  simp only [Numeral.step] at hstep
  split_ifs at hstep with hx hpoint hbreak hdigit <;> obtain rfl := Option.some.inj hstep
  · exact ⟨c, rfl, hx⟩
  · subst hpoint
    exact (isDecimal_singleton rfl).point
  · exact (isDecimal_singleton rfl).concat hdigit
  -- neither digit nor mark after a zero: no number any more, but a misspelt one
  · rw [not_or] at hx
    exact ⟨c, [], rfl, hx.1, hx.2, hpoint, by simpa using hdigit, by simpa using hbreak⟩

theorem shape_after_decimal (h : IsDecimal w) (hzero : w ≠ ['0']) (hstep : decimal.step d c = some n') :
    Shape d n' (w ++ [c]) := by
  simp only [Numeral.step] at hstep
  split_ifs at hstep with hexp hpoint
  · obtain rfl := Option.some.inj hstep
    obtain ⟨hd, hc⟩ := startsExponent_iff.1 hexp
    exact ⟨hd, w, c, rfl, .inr ⟨h, hzero⟩, hc⟩
  · obtain rfl := Option.some.inj hstep
    subst hpoint
    exact h.point
  · exact shape_of_onDigits hstep h.concat

theorem shape_after_hexMark {x : Char} (hx : x = 'x' ∨ x = 'X') (hstep : hexMark.step d c = some n') :
    Shape d n' ['0', x, c] :=
  shape_of_onDigits hstep fun hdigit => ⟨x, [c], rfl, hx, by simp, by simpa using hdigit⟩

theorem shape_after_hex (h : IsHex w) (hstep : hex.step d c = some n') : Shape d n' (w ++ [c]) := by
  obtain ⟨x, digits, rfl, hx, hne, hdigits⟩ := h
  refine shape_of_onDigits hstep fun hdigit => ?_
  exact ⟨x, digits ++ [c], rfl, hx, by simp, forall_mem_concat hdigits hdigit⟩

theorem shape_after_fraction (h : IsFraction w) (hstep : fraction.step d c = some n') : Shape d n' (w ++ [c]) := by
  simp only [Numeral.step] at hstep
  split_ifs at hstep with hexp
  · obtain rfl := Option.some.inj hstep
    obtain ⟨hd, hc⟩ := startsExponent_iff.1 hexp
    exact ⟨hd, w, c, rfl, .inl h, hc⟩
  · exact shape_of_onDigits hstep h.concat

theorem shape_after_exponentMark (h : Shape d exponentMark w) (hstep : exponentMark.step d c = some n') :
    Shape d n' (w ++ [c]) := by
  obtain ⟨hd, mantissa, e, rfl, hmantissa, he⟩ := h
  simp only [Numeral.step] at hstep
  split_ifs at hstep with hsign
  · obtain rfl := Option.some.inj hstep
    -- the sign is kept apart from the digits, which are still to come
    exact ⟨hd, mantissa, e, [c], by simp, hmantissa, he, hsign.imp (congrArg ([·])) (congrArg ([·]))⟩
  · refine shape_of_onDigits hstep fun hdigit => ?_
    exact ⟨hd, mantissa, e, [], [c], by simp, hmantissa, he, .inl rfl, isDecimal_singleton hdigit⟩

theorem shape_after_exponentSign (h : Shape d exponentSign w) (hstep : exponentSign.step d c = some n') :
    Shape d n' (w ++ [c]) := by
  obtain ⟨hd, mantissa, e, sign, rfl, hmantissa, he, hsign⟩ := h
  refine shape_of_onDigits hstep fun hdigit => ?_
  exact ⟨hd, mantissa, e, sign, [c], by simp, hmantissa, he, .inr hsign, isDecimal_singleton hdigit⟩

theorem shape_after_exponent (h : Shape d exponent w) (hstep : exponent.step d c = some n') :
    Shape d n' (w ++ [c]) := by
  obtain ⟨hd, mantissa, e, sign, digits, rfl, hmantissa, he, hsign, hdigits⟩ := h
  refine shape_of_onDigits hstep fun hdigit => ?_
  exact ⟨hd, mantissa, e, sign, digits ++ [c], by simp, hmantissa, he, hsign, (hdigits.concat hdigit).1⟩

/-- A misspelt number stays one, whatever more belongs to it. -/
theorem shape_after_misspelt (h : Shape d misspelt w) (hstep : misspelt.step d c = some n') :
    Shape d n' (w ++ [c]) := by
  obtain ⟨x, t, rfl, hx⟩ := h
  simp only [Numeral.step] at hstep
  split_ifs at hstep
  obtain rfl := Option.some.inj hstep
  exact ⟨x, t ++ [c], rfl, hx⟩

theorem shape_after_malformed (hstep : malformed.step d c = some n') : Shape d n' t := by
  simp only [Numeral.step] at hstep
  split_ifs at hstep
  obtain rfl := Option.some.inj hstep
  trivial

/-- One more character takes the shape of a state to that of the next state. -/
theorem Shape.step (h : Shape d n w) (hstep : n.step d c = some n') : Shape d n' (w ++ [c]) := by
  cases n with
  | zero =>
    obtain rfl : w = ['0'] := h
    exact shape_after_zero hstep
  | decimal => exact shape_after_decimal h.1 h.2 hstep
  | hexMark =>
    obtain ⟨x, rfl, hx⟩ := h
    exact shape_after_hexMark hx hstep
  | hex => exact shape_after_hex h hstep
  | fraction => exact shape_after_fraction h hstep
  | exponentMark => exact shape_after_exponentMark h hstep
  | exponentSign => exact shape_after_exponentSign h hstep
  | exponent => exact shape_after_exponent h hstep
  | malformed => exact shape_after_malformed hstep
  | misspelt => exact shape_after_misspelt h hstep

theorem Shape.foldlM (h : Shape d n w) (ht : t.foldlM (Numeral.step d) n = some n') : Shape d n' (w ++ t) := by
  induction t generalizing n w with
  | nil =>
    obtain rfl : n = n' := Option.some.inj ht
    rwa [List.append_nil]
  | cons c t ih =>
    rw [List.foldlM_cons] at ht
    cases hstep : n.step d c with
    | none =>
      rw [hstep] at ht
      cases ht
    | some m =>
      rw [hstep] at ht
      have hshape := ih (h.step hstep) ht
      rwa [List.append_assoc] at hshape

theorem shape_of_reads (h : reads d w = some n) : Shape d n w := by
  cases w with
  | nil => cases h
  | cons c t =>
    simp only [reads] at h
    split_ifs at h with hzero hdigit
    · subst hzero
      have hstart : Shape d zero ['0'] := rfl
      exact hstart.foldlM h
    · have hstart : Shape d decimal [c] := ⟨isDecimal_singleton hdigit, by simpa using hzero⟩
      exact hstart.foldlM h

end Shapes

/-! ## The kinds of numbers -/

theorem readKind_eq_decimal_iff : readKind d w = some .decimal ↔ IsDecimal w := by
  constructor
  · intro h
    obtain ⟨n, hreads, hkind⟩ := Option.map_eq_some_iff.1 h
    have hshape := shape_of_reads hreads
    cases n <;> simp only [kind, reduceCtorEq] at hkind
    · rw [show w = ['0'] from hshape]
      exact isDecimal_singleton rfl
    · exact hshape.1
  · intro h
    rw [readKind, reads_of_isDecimal h]
    split_ifs <;> rfl

theorem readKind_eq_hex_iff : readKind d w = some .hex ↔ IsHex w := by
  constructor
  · intro h
    obtain ⟨n, hreads, hkind⟩ := Option.map_eq_some_iff.1 h
    have hshape := shape_of_reads hreads
    cases n <;> simp only [kind, reduceCtorEq] at hkind
    exact hshape
  · intro h
    rw [readKind, reads_of_isHex h]
    rfl

theorem readKind_eq_float_iff : readKind d w = some .float ↔ IsFloat d w := by
  constructor
  · intro h
    obtain ⟨n, hreads, hkind⟩ := Option.map_eq_some_iff.1 h
    have hshape := shape_of_reads hreads
    cases n <;> simp only [kind, reduceCtorEq] at hkind
    · exact .inl hshape
    · exact .inr hshape
  · rintro (h | ⟨rfl, h⟩)
    · rw [readKind, reads_of_isFraction h]
      rfl
    · rw [readKind, reads_of_isExponential h]
      rfl

end Numeral

end DoomLex
