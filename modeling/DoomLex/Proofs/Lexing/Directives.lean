/-
Directives over several lines. A line of a directive is carried on to the next one if it ends in an odd
number of backslashes, whatever blanks stand between them and after them. So the last run of
backslashes alone decides, unless an odd number of others comes before it with only blanks between.
-/
import DoomLex.Proofs.Lexing.Stretches
import Mathlib.Algebra.Ring.Parity
import Mathlib.Data.List.TakeWhile

namespace DoomLex

/-! ## Backslashes at the end of a text -/

namespace Text

/-- The length of the run of backslashes in which a text ends, blanks after it apart. -/
def closingBackslashes (t : Text) : Nat := ((t.reverse.dropWhile isBlank).takeWhile (· == '\\')).length

/-- A blank or a backslash. -/
def isTail (c : Char) : Bool := isBlank c || c == '\\'

/-- The number of backslashes before the run in which a text ends, as long as only blanks stand between. -/
def earlierBackslashes (t : Text) : Nat :=
  (((t.reverse.dropWhile isBlank).dropWhile (· == '\\')).takeWhile isTail).count '\\'

/-- The number of backslashes in which a text ends, blanks between them and after them apart. -/
def tailBackslashes (t : Text) : Nat := (t.reverse.takeWhile isTail).count '\\'

theorem takeWhile_isTail_dropWhile (p : Char → Bool) (hp : ∀ c, p c = true → isTail c = true) (t : Text) :
    t.takeWhile isTail = t.takeWhile p ++ (t.dropWhile p).takeWhile isTail := by
  induction t with
  | nil => rfl
  | cons c t ih =>
    by_cases hc : p c = true
    · simp [hc, hp c hc, ih]
    · simp [hc]

/-- The backslashes at the end are those of the last run and those before it. -/
theorem tailBackslashes_eq (t : Text) : tailBackslashes t = closingBackslashes t + earlierBackslashes t := by
  have hblank : ∀ c, isBlank c = true → isTail c = true := by
    intro c hc
    simp [isTail, hc]
  have hbackslash : ∀ c, (c == '\\') = true → isTail c = true := by
    intro c hc
    simp [isTail, hc]
  have hnone : (t.reverse.takeWhile isBlank).count '\\' = 0 := by
    rw [List.count_eq_zero]
    intro h
    exact absurd (List.mem_takeWhile_imp h) (by decide)
  have hall : ∀ s : Text, (s.takeWhile (· == '\\')).count '\\' = (s.takeWhile (· == '\\')).length := by
    intro s
    rw [List.count_eq_length]
    intro c hc
    have hbackslash := List.mem_takeWhile_imp hc
    exact (beq_iff_eq.1 hbackslash).symm
  rw [tailBackslashes, takeWhile_isTail_dropWhile isBlank hblank,
    takeWhile_isTail_dropWhile (· == '\\') hbackslash, List.count_append, List.count_append, hnone, hall,
    Nat.zero_add]
  rfl

theorem tailBackslashes_concat (t : Text) (c : Char) :
    tailBackslashes (t ++ [c]) =
      if c = '\\' then tailBackslashes t + 1 else if isBlank c then tailBackslashes t else 0 := by
  unfold tailBackslashes
  rw [List.reverse_append]
  split_ifs with hc hb
  · simp [hc, isTail]
  · simp [hb, hc, isTail]
  · simp [hb, hc, isTail]

end Text

/-! ## The scan of a directive -/

namespace Braces

variable (d : Dialect)

/-- Where in a directive the scan stands after some backslashes at the end of what it has read. -/
def directiveAfter (backslashes : Nat) : Scan :=
  if Odd backslashes then .directiveCarried else .directive

theorem directiveAfter_of_odd {n : Nat} (hn : Odd n) : directiveAfter n = .directiveCarried := if_pos hn

theorem directiveAfter_of_not_odd {n : Nat} (hn : ¬ Odd n) : directiveAfter n = .directive := if_neg hn

/-- One more backslash changes whether the line is carried on, a blank leaves it, and any other
character ends all that. -/
theorem answer_directiveAfter (n : Nat) (c : Char) :
    answer d (directiveAfter n) c =
      .take (directiveAfter (if c = '\\' then n + 1 else if Text.isBlank c then n else 0)) := by
  have hzero : directiveAfter 0 = .directive := directiveAfter_of_not_odd (by decide)
  by_cases hn : Odd n
  · have hsucc : directiveAfter (n + 1) = .directive :=
      directiveAfter_of_not_odd (Nat.odd_add_one.not.2 (not_not_intro hn))
    rw [directiveAfter_of_odd hn]
    by_cases hc : c = '\\'
    · subst hc
      have hblank : Text.isBlank '\\' = false := by decide
      simp [answer, hsucc, hblank]
    · by_cases hb : Text.isBlank c = true
      · simp [answer, hc, hb, directiveAfter_of_odd hn]
      · simp [answer, hc, hb, hzero]
  · have hsucc : directiveAfter (n + 1) = .directiveCarried :=
      directiveAfter_of_odd (Nat.odd_add_one.2 hn)
    rw [directiveAfter_of_not_odd hn]
    by_cases hc : c = '\\'
    · simp [answer, hc, hsucc]
    · by_cases hb : Text.isBlank c = true
      · simp [answer, hc, hb, directiveAfter_of_not_odd hn]
      · simp [answer, hc, hb, hzero]

theorem takes_directive {s : Scan} {u : Text}
    (h : (machine d).Takes s u (directiveAfter (Text.tailBackslashes u))) {t : Text} (ht : '\n' ∉ t) :
    (machine d).Takes s (u ++ t) (directiveAfter (Text.tailBackslashes (u ++ t))) := by
  induction t using List.reverseRecOn with
  | nil => simpa using h
  | append_singleton t c ih =>
    obtain ⟨ht, hc⟩ : '\n' ∉ t ∧ c ≠ '\n' := by simpa [eq_comm] using ht
    rw [← List.append_assoc, Text.tailBackslashes_concat]
    exact (ih ht).concat hc (answer_directiveAfter d _ c)

/-- The state after a line of a directive that ends in some backslashes, if those are paired off. -/
def carriedBy (backslashes : Nat) : LineState := if Odd backslashes then .preprocessor else .neutral

theorem carriedBy_eq_iff {m n : Nat} : carriedBy m = carriedBy n ↔ (Odd m ↔ Odd n) := by
  unfold carriedBy
  by_cases hm : Odd m <;> by_cases hn : Odd n <;> simp [hm, hn]

theorem leave_directiveAfter (n : Nat) : leave (directiveAfter n) = carriedBy n := by
  unfold directiveAfter carriedBy
  split_ifs <;> rfl

theorem label_directiveAfter (n : Nat) : label d (directiveAfter n) = fun _ => .preprocessor := by
  unfold directiveAfter
  split_ifs <;> rfl

end Braces

/-! ## Lines of directives -/

/-- A line of a directive: one that carries a directive on, or one that starts with a number sign
where nothing is open. -/
def IsDirectiveLine (state : LineState) (t : Text) : Prop :=
  '\n' ∉ t ∧ (state = .preprocessor ∨ state = .neutral ∧ t.head? = some '#')

theorem takes_directive_line (d : Dialect) {state : LineState} {t : Text} (h : IsDirectiveLine state t) :
    (Braces.machine d).Takes ((Braces.machine d).enter state) t
      (Braces.directiveAfter (Text.tailBackslashes t)) := by
  obtain ⟨ht, rfl | ⟨rfl, hhead⟩⟩ := h
  · exact Braces.takes_directive d (u := []) .nil ht
  · obtain ⟨rest, rfl⟩ : ∃ rest, t = '#' :: rest := by
      cases t with
      | nil => cases hhead
      | cons c rest => cases hhead; exact ⟨rest, rfl⟩
    have hsign : (Braces.machine d).Takes .neutral ['#']
        (Braces.directiveAfter (Text.tailBackslashes ['#'])) :=
      .cons (by decide) rfl .nil
    exact Braces.takes_directive d hsign (fun hmem => ht (List.mem_cons_of_mem _ hmem))

/-- All of a line of a directive is of the kind of directives, and the next line carries the directive
on exactly if the backslashes at the end of the line, blanks between them and after them apart, are odd
in number. So the last run of them alone decides exactly if those before that run are even in number. -/
theorem directive_line_carried {l : Language} {d : Dialect} (hl : l.dialect? = some d) {state : LineState}
    {t : Text} (ht : IsDirectiveLine state t) (offset : Nat) :
    Fills offset .preprocessor t (l.tokenize t state offset).tokens ∧
    (l.tokenize t state offset).next =
      Braces.carriedBy (Text.closingBackslashes t + Text.earlierBackslashes t) ∧
    ((l.tokenize t state offset).next = Braces.carriedBy (Text.closingBackslashes t) ↔
      Even (Text.earlierBackslashes t)) := by
  have hscan : l.scan state t =
      (Run.ofPending (fun _ => .preprocessor) t.reverse, Braces.carriedBy (Text.tailBackslashes t)) := by
    rw [Language.scan_of_dialect hl, Machine.scan, Machine.scanFrom_of_takes_all (takes_directive_line d ht),
      List.append_nil]
    show (Run.ofPending (Braces.label d _) _, Braces.leave _) = _
    rw [Braces.leave_directiveAfter, Braces.label_directiveAfter]
  rw [Text.tailBackslashes_eq] at hscan
  obtain ⟨hfills, hnext⟩ := Language.lexesWhole_of_scan hscan offset
  refine ⟨hfills, hnext, ?_⟩
  rw [hnext, Braces.carriedBy_eq_iff, Nat.odd_add]
  -- the two rules differ where the backslashes before the last run change the parity
  by_cases hodd : Odd (Text.closingBackslashes t) <;> simp [hodd]

/-- A doubled run before a blank leaves the last backslash to carry the line on. -/
theorem directive_line_carried_doubled :
    let t := "#x \\\\ \\ ".toList
    Language.rookScript.dialect? = some .script ∧ IsDirectiveLine .neutral t ∧
      (Language.rookScript.tokenize t .neutral 0).next = .preprocessor := by
  have hl : Language.rookScript.dialect? = some .script := rfl
  have ht : IsDirectiveLine .neutral "#x \\\\ \\ ".toList := ⟨by decide, .inr ⟨rfl, rfl⟩⟩
  obtain ⟨-, hnext, -⟩ := directive_line_carried hl ht 0
  exact ⟨hl, ht, hnext.trans (by decide)⟩

/-- A line that ends in a single backslash is not carried on if a backslash and a blank stand before
that one. -/
theorem directive_line_dropped :
    let t := "#x \\ \\".toList
    IsDirectiveLine .neutral t ∧ Text.closingBackslashes t = 1 ∧
      (Language.decoHack.tokenize t .neutral 0).next = .neutral :=
  ⟨⟨by decide, .inr ⟨rfl, rfl⟩⟩, by decide, by decide⟩

end DoomLex
