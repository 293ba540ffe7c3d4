/-
Literals read from the text: backslashes pair with the characters after them from left to right, a
literal ends at its first quote that is no second member of a pair, and an escape is bad if one of the
digits that it asks for is none. The scan of a literal, which keeps count of the digits still missing and
goes another way after a bad escape, finds the same end and the same bad escapes.
-/
import DoomLex.Grammar.Literal
import Mathlib.Tactic.SplitIfs

namespace DoomLex.Literal

/-! ## Pairs of backslashes

In all of these, `taken` says whether the first character of the text is the second member of a pair. -/

/-- Each character with whether it is the second member of a pair: every backslash that is not itself one
pairs with the character after it. -/
def paired (taken : Bool) : Text → List (Char × Bool)
  | [] => []
  | c :: t => (c, taken) :: paired (!taken && c == '\\') t

/-- A quote that is not the second member of a pair. -/
def closingQuote : Char × Bool := ('"', false)

/-- The number of characters before the closing quote, of all if there is none. -/
def innerLength (taken : Bool) (t : Text) : Nat := (paired taken t).idxOf closingQuote

/-- What a literal has of the text after its opening quote: all through its closing quote, or all of the
text. -/
def extent (taken : Bool) (t : Text) : Text := t.take (innerLength taken t + 1)

/-- The text has a closing quote. -/
def Closed (taken : Bool) (t : Text) : Prop := closingQuote ∈ paired taken t

/-- The second member of a pair before the closing quote asks for digits, and a character that is none
comes among the next so many. -/
def HasBadEscape (wide taken : Bool) (t : Text) : Prop :=
  ∃ i c n, (paired taken t)[i]? = some (c, true) ∧ i < innerLength taken t ∧ digitsAfter wide c = some n ∧
    ∃ x ∈ (t.drop (i + 1)).take n, Text.isHexDigit x = false

section Pairs

variable {wide taken : Bool} {c : Char} {t : Text}

theorem innerLength_cons (h : (c, taken) ≠ closingQuote) :
    innerLength taken (c :: t) = innerLength (!taken && c == '\\') t + 1 := by
  rw [innerLength, paired, List.idxOf_cons, beq_false_of_ne h]
  rfl

theorem extent_cons (h : (c, taken) ≠ closingQuote) :
    extent taken (c :: t) = c :: extent (!taken && c == '\\') t := by
  rw [extent, innerLength_cons h]
  rfl

theorem closed_cons (h : (c, taken) ≠ closingQuote) :
    Closed taken (c :: t) ↔ Closed (!taken && c == '\\') t := by
  rw [Closed, paired, List.mem_cons, or_iff_right h.symm]
  rfl

/-- A bad escape is that of the first character or one further on. -/
theorem hasBadEscape_cons (h : (c, taken) ≠ closingQuote) :
    HasBadEscape wide taken (c :: t) ↔
      (taken = true ∧ ∃ n, digitsAfter wide c = some n ∧ ∃ x ∈ t.take n, Text.isHexDigit x = false) ∨
        HasBadEscape wide (!taken && c == '\\') t := by
  constructor
  · rintro ⟨i, c', n, hi, hlt, hn, hx⟩
    cases i with
    | zero =>
      obtain ⟨rfl, rfl⟩ := Prod.mk.inj (Option.some.inj hi)
      exact .inl ⟨rfl, n, hn, hx⟩
    | succ i =>
      rw [innerLength_cons h] at hlt
      exact .inr ⟨i, c', n, hi, Nat.lt_of_succ_lt_succ hlt, hn, hx⟩
  · rintro (⟨rfl, n, hn, hx⟩ | ⟨i, c', n, hi, hlt, hn, hx⟩)
    · exact ⟨0, c, n, rfl, by rw [innerLength_cons h]; exact Nat.succ_pos _, hn, hx⟩
    · exact ⟨i + 1, c', n, hi, by rw [innerLength_cons h]; exact Nat.succ_lt_succ hlt, hn, hx⟩

theorem innerLength_closing : innerLength false ('"' :: t) = 0 := List.idxOf_cons_self

theorem extent_closing : extent false ('"' :: t) = ['"'] := by
  rw [extent, innerLength_closing]
  rfl

theorem closed_closing : Closed false ('"' :: t) := List.mem_cons_self

theorem not_hasBadEscape_closing : ¬ HasBadEscape wide false ('"' :: t) := by
  rintro ⟨i, c, n, -, hlt, -⟩
  rw [innerLength_closing] at hlt
  exact Nat.not_lt_zero i hlt

end Pairs

/-! ## The scan of a literal -/

/-- The scan stands before the second member of a pair. -/
def takes : Literal → Bool
  | escape | badEscape => true
  | body | digits _ | bad => false

/-- A bad escape has been met. -/
def spoilt : Literal → Bool
  | bad | badEscape => true
  | body | escape | digits _ => false

/-- The number of characters that have to be digits. -/
def missing : Literal → Nat
  | digits n => max 1 n
  | body | escape | bad | badEscape => 0

/-- Where the scan stands after a character, which it may ask to see twice; none if the character closes
the literal. -/
def advance? (wide : Bool) (q : Literal) (c : Char) : Option Literal :=
  match q.step wide c with
  | .stay q' => some q'
  | .again q' =>
    match q'.step wide c with
    | .stay q'' => some q''
    | _ => none
  | .closed _ => none

/-- The kind of the literal if a quote closes it. -/
def closedKind (q : Literal) : Kind := if q = body then .string else .errorEscape

/-- The literal turns out to have a bad escape, by the text that is left of it. -/
def Spoils (wide : Bool) (q : Literal) (t : Text) : Prop :=
  q.spoilt = true ∨ (∃ x ∈ t.take q.missing, Text.isHexDigit x = false) ∨ HasBadEscape wide q.takes t

theorem spoils_body (wide : Bool) (t : Text) : Spoils wide body t ↔ HasBadEscape wide false t := by
  simp [Spoils, spoilt, missing, takes]

theorem not_isHexDigit_quote : Text.isHexDigit '"' = false := by decide

theorem not_isHexDigit_backslash : Text.isHexDigit '\\' = false := by decide

section Advance

variable (wide : Bool) (c : Char)

theorem advance?_body :
    advance? wide body c = if c = '"' then none else some (if c = '\\' then escape else body) := by
  simp only [advance?, step]
  split_ifs <;> simp_all

theorem advance?_escape :
    advance? wide escape c = some ((digitsAfter wide c).elim body digits) := by
  simp only [advance?, step]
  cases digitsAfter wide c <;> rfl

theorem advance?_bad :
    advance? wide bad c = if c = '"' then none else some (if c = '\\' then badEscape else bad) := by
  simp only [advance?, step]
  split_ifs <;> rfl

theorem advance?_badEscape : advance? wide badEscape c = some bad := rfl

theorem advance?_digits_of_hex {n : Nat} (h : Text.isHexDigit c = true) :
    advance? wide (digits n) c = some (if 1 < n then digits (n - 1) else body) := by
  simp only [advance?, step, h, if_true]

/-- A character that should have been a digit is read as one of a bad literal. -/
theorem advance?_digits_of_not_hex {n : Nat} (h : Text.isHexDigit c = false) :
    advance? wide (digits n) c = advance? wide bad c := by
  simp only [advance?, step, h, Bool.false_eq_true, if_false]
  split_ifs <;> rfl

end Advance

variable {wide : Bool} {q q' : Literal} {c : Char}

/-- A literal is closed by the quotes that are no second member of a pair, wherever in it the scan
stands. -/
theorem advance?_eq_none_iff : q.advance? wide c = none ↔ (c, q.takes) = closingQuote := by
  cases q with
  | body => simp [advance?_body, takes, closingQuote]
  | escape => simp [advance?_escape, takes, closingQuote]
  | digits n =>
    cases hc : Text.isHexDigit c with
    | true =>
      have hne : c ≠ '"' := by rintro rfl; simp [not_isHexDigit_quote] at hc
      simp [advance?_digits_of_hex wide c hc, takes, closingQuote, hne]
    | false => simp [advance?_digits_of_not_hex wide c hc, advance?_bad, takes, closingQuote]
  | bad => simp [advance?_bad, takes, closingQuote]
  | badEscape => simp [advance?_badEscape, takes, closingQuote]

theorem not_closing_of_advance (h : q.advance? wide c = some q') : (c, q.takes) ≠ closingQuote := by
  intro hc
  rw [advance?_eq_none_iff.2 hc] at h
  cases h

theorem takes_of_advance_bad (h : advance? wide bad c = some q') : q'.takes = (c == '\\') := by
  rw [advance?_bad] at h
  split_ifs at h with hquote hslash <;> (obtain rfl := Option.some.inj h; simp [takes, hslash])

theorem spoilt_of_advance_bad (h : advance? wide bad c = some q') : q'.spoilt = true := by
  rw [advance?_bad] at h
  split_ifs at h with hquote hslash <;> (obtain rfl := Option.some.inj h; rfl)

/-- The scan stands before the second member of a pair after a backslash that is not one itself. -/
theorem takes_of_advance (h : q.advance? wide c = some q') : q'.takes = (!q.takes && c == '\\') := by
  cases q with
  | body =>
    rw [advance?_body] at h
    split_ifs at h with hquote hslash <;> (obtain rfl := Option.some.inj h; simp [takes, hslash])
  | escape =>
    rw [advance?_escape] at h
    obtain rfl := Option.some.inj h
    cases digitsAfter wide c <;> rfl
  | digits n =>
    cases hc : Text.isHexDigit c with
    | true =>
      rw [advance?_digits_of_hex wide c hc] at h
      obtain rfl := Option.some.inj h
      have hslash : c ≠ '\\' := by rintro rfl; rw [not_isHexDigit_backslash] at hc; cases hc
      split_ifs <;> simp [takes, hslash]
    | false =>
      rw [advance?_digits_of_not_hex wide c hc] at h
      exact takes_of_advance_bad h
  | bad => exact takes_of_advance_bad h
  | badEscape =>
    obtain rfl := Option.some.inj h
    rfl

theorem digitsAfter_pos {n : Nat} (h : digitsAfter wide c = some n) : 0 < n := by
  unfold digitsAfter at h
  split_ifs at h <;> (obtain rfl := Option.some.inj h; decide)

theorem missing_digits_next (n : Nat) :
    missing (if 1 < n then digits (n - 1) else body) = missing (digits n) - 1 := by
  split_ifs <;> (simp only [missing]; omega)

theorem take_missing_cons (n : Nat) (t : Text) :
    (c :: t).take (missing (digits n)) = c :: t.take (missing (digits n) - 1) := by
  have hpos : 1 ≤ missing (digits n) := Nat.le_max_left 1 n
  rw [← List.take_succ_cons, Nat.sub_add_cancel hpos]

theorem spoils_of_spoilt (h : q.spoilt = true) (t : Text) : Spoils wide q t := .inl h

/-- Whether a literal turns out to have a bad escape can be told before a character as well as after it. -/
theorem spoils_of_advance (h : q.advance? wide c = some q') (t : Text) :
    Spoils wide q (c :: t) ↔ Spoils wide q' t := by
  have hlater := @hasBadEscape_cons wide _ _ t (not_closing_of_advance h)
  rw [← takes_of_advance h] at hlater
  cases q with
  | body =>
    rw [advance?_body] at h
    split_ifs at h <;> (obtain rfl := Option.some.inj h; simpa [Spoils, spoilt, missing, takes] using hlater)
  | escape =>
    rw [advance?_escape] at h
    obtain rfl := Option.some.inj h
    cases hn : digitsAfter wide c with
    | none => simpa [Spoils, spoilt, missing, takes, hn] using hlater
    | some n =>
      have hpos : max 1 n = n := Nat.max_eq_right (digitsAfter_pos hn)
      simpa [Spoils, spoilt, missing, takes, hn, hpos] using hlater
  | digits n =>
    cases hc : Text.isHexDigit c with
    | true =>
      rw [advance?_digits_of_hex wide c hc] at h
      obtain rfl := Option.some.inj h
      have hspoilt : spoilt (if 1 < n then digits (n - 1) else body) = false := by split_ifs <;> rfl
      rw [Spoils, Spoils, hlater, take_missing_cons, missing_digits_next, hspoilt]
      simp [spoilt, takes, hc]
    | false =>
      rw [advance?_digits_of_not_hex wide c hc] at h
      have hfirst : c ∈ (c :: t).take (missing (digits n)) := take_missing_cons n t ▸ List.mem_cons_self
      exact iff_of_true (.inr (.inl ⟨c, hfirst, hc⟩)) (spoils_of_spoilt (spoilt_of_advance_bad h) t)
  | bad => exact iff_of_true (spoils_of_spoilt rfl _) (spoils_of_spoilt (spoilt_of_advance_bad h) t)
  | badEscape =>
    obtain rfl := Option.some.inj h
    exact iff_of_true (spoils_of_spoilt rfl _) (spoils_of_spoilt rfl t)

/-! ## The end of a literal -/

theorem not_hasBadEscape_nil (taken : Bool) : ¬ HasBadEscape wide taken [] := by
  rintro ⟨i, c, n, hi, -⟩
  cases hi

/-- The kind of a literal, by the text that is left of it. -/
structure Judged (wide : Bool) (q : Literal) (t : Text) (kind : Kind) : Prop where
  bad : Spoils wide q t → kind = .errorEscape
  closed : ¬ Spoils wide q t → Closed q.takes t → kind = .string
  unclosed : ¬ Spoils wide q t → ¬ Closed q.takes t → kind = .errorString

theorem Judged.of_advance {t : Text} {kind : Kind} (h : q.advance? wide c = some q')
    (hq : Judged wide q' t kind) : Judged wide q (c :: t) kind := by
  have hspoils := spoils_of_advance h t
  have hclosed := @closed_cons _ _ t (not_closing_of_advance h)
  rw [← takes_of_advance h] at hclosed
  constructor
  · rw [hspoils]; exact hq.bad
  · rw [hspoils, hclosed]; exact hq.closed
  · rw [hspoils, hclosed]; exact hq.unclosed

/-- What the scan makes of a literal that a quote closes is what the text makes of it. -/
theorem judged_closing (h : q.takes = false) (t : Text) : Judged wide q ('"' :: t) q.closedKind := by
  have hclosed : Closed q.takes ('"' :: t) := h ▸ closed_closing
  cases q with
  | body =>
    have hspoils : ¬ Spoils wide body ('"' :: t) := mt (spoils_body wide _).1 not_hasBadEscape_closing
    exact ⟨fun h => absurd h hspoils, fun _ _ => rfl, fun _ h => absurd hclosed h⟩
  | digits n =>
    have hfirst : '"' ∈ ('"' :: t).take (missing (digits n)) := take_missing_cons n t ▸ List.mem_cons_self
    have hspoils : Spoils wide (digits n) ('"' :: t) := .inr (.inl ⟨'"', hfirst, not_isHexDigit_quote⟩)
    exact ⟨fun _ => rfl, fun h => absurd hspoils h, fun h => absurd hspoils h⟩
  | bad =>
    have hspoils : Spoils wide bad ('"' :: t) := spoils_of_spoilt rfl _
    exact ⟨fun _ => rfl, fun h => absurd hspoils h, fun h => absurd hspoils h⟩
  | escape | badEscape => cases h

/-- What the scan makes of a literal that its line leaves open is what the text makes of it. -/
theorem judged_nil : Judged wide q [] q.openKind := by
  have hspoils : Spoils wide q [] ↔ q.spoilt = true := by simp [Spoils, not_hasBadEscape_nil]
  have hclosed : ¬ Closed q.takes [] := List.not_mem_nil
  constructor
  · rw [hspoils]; cases q <;> simp [spoilt, openKind]
  · intro _ h; exact absurd h hclosed
  · rw [hspoils]; cases q <;> simp [spoilt, openKind]

end DoomLex.Literal
