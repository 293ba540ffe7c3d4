/-
Documents that are written line by line. A line of a statement is read up to its end whatever follows it, and
blank lines count for nothing, so that a document of such lines is read as its statements in their order.
-/
import DoomLex.Toml.Reader
import DoomLex.Proofs.Toml.Scalar

namespace DoomLex.Toml

variable {c : Char} {t u w key rest : Text} {s : Statement} {ss us : List Statement} {v : Toml} {path : List Text}

/-! ## Starts and ends of lines -/

/-- A character that can start a statement. -/
def isStart (c : Char) : Bool := !(isGap c || c == '\n' || c == '\r' || c == '#' || c == '\ufeff')

theorem skipGap_cons (h : isGap c = false) : skipGap (c :: t) = c :: t := by
  simp [skipGap, h]

theorem skipGap_of_head? (h : ∀ c ∈ t.head?, isGap c = false) : skipGap t = t := by
  cases t with
  | nil => rfl
  | cons c t => exact skipGap_cons (h c rfl)

theorem isGap_of_isStart (h : isStart c = true) : isGap c = false := by
  simp only [isStart, Bool.not_eq_true', Bool.or_eq_false_iff] at h
  exact h.1.1.1.1

theorem skipLines_of_isStart (h : isStart c = true) (n : Nat) : skipLines n (c :: t) = some (c :: t) := by
  cases n with
  | zero => rfl
  | succ n =>
    have hgap := isGap_of_isStart h
    have hcomment : skipComment (c :: t) = some (c :: t) := by
      unfold skipComment
      split
      · exact absurd (by assumption) (cons_ne_of_class isStart h '#' _ rfl)
      · rfl
    have hbreak : readBreak (c :: t) = none := by
      unfold readBreak
      split
      · exact absurd (by assumption) (cons_ne_of_class isStart h '\n' _ rfl)
      · exact absurd (by assumption) (cons_ne_of_class isStart h '\r' _ rfl)
      · rfl
    rw [skipLines, skipGap_cons hgap, hcomment]
    simp only [hbreak]

theorem skipLines_break (n : Nat) (t : Text) : skipLines (n + 1) ('\n' :: t) = skipLines n t := rfl

theorem readLineEnd_break (t : Text) : readLineEnd ('\n' :: t) = some t := rfl

/-! ## Documents of lines -/

/-- A line that is read as a statement, whatever follows it. -/
structure IsLine (line : Text) (s : Statement) : Prop where
  starts : ∃ c t, line = c :: t ∧ isStart c = true
  reads : ∀ rest, readStatement (line ++ rest) = some (s, rest)

/-- Documents of lines with statements and of blank lines. -/
inductive Written : Text → List Statement → Prop
  | nil : Written [] []
  | blank {t : Text} {ss : List Statement} (h : Written t ss) : Written ('\n' :: t) ss
  | line {line t : Text} {s : Statement} {ss : List Statement} (hline : IsLine line s) (h : Written t ss) :
    Written (line ++ t) (s :: ss)

theorem Written.append (ht : Written t ss) (hu : Written u us) : Written (t ++ u) (ss ++ us) := by
  induction ht with
  | nil => exact hu
  | blank _ ih => exact .blank ih
  | line hline _ ih =>
    rw [List.append_assoc]
    exact .line hline ih

/-- One statement for each item, from a line for each. -/
theorem Written.flatMap {α : Type} {line : α → Text} {statement : α → Statement} {items : List α}
    (h : ∀ a ∈ items, IsLine (line a) (statement a)) : Written (items.flatMap line) (items.map statement) := by
  induction items with
  | nil => exact .nil
  | cons a items ih =>
    obtain ⟨ha, hitems⟩ := List.forall_mem_cons.1 h
    rw [List.flatMap_cons]
    exact .line ha (ih hitems)

theorem readStatements_of_written (h : Written t ss) {n : Nat} (hn : t.length ≤ n) :
    readStatements n t = some ss := by
  induction h generalizing n with
  | nil => cases n <;> rfl
  | @blank t ss _ ih =>
    cases n with
    | zero => exact absurd hn (Nat.not_succ_le_zero _)
    | succ n =>
      -- the lines that one statement skips start a line later
      have hread := ih (Nat.le_of_succ_le hn)
      rw [readStatements, List.length_cons, skipLines_break]
      rwa [readStatements] at hread
  | @line line t s ss hline _ ih =>
    obtain ⟨c, u, rfl, hc⟩ := hline.starts
    have hreads := hline.reads t
    rw [List.cons_append] at hn hreads ⊢
    cases n with
    | zero => exact absurd hn (Nat.not_succ_le_zero _)
    | succ n =>
      rw [List.length_cons, List.length_append] at hn
      simp only [readStatements, skipLines_of_isStart hc, hreads, ih (show t.length ≤ n by omega),
        Option.map_some]

/-- A document of lines is read as its statements. -/
theorem read_of_written (h : Written t ss) : read t = fill [] [] ss := by
  have hmark : t.head? ≠ some '\ufeff' := by
    cases h with
    | nil => exact nofun
    | blank _ => exact fun h => absurd (Option.some.inj h) (by decide)
    | line hline _ =>
      obtain ⟨c, u, rfl, hc⟩ := hline.starts
      exact fun hhead => ne_of_class isStart hc rfl (Option.some.inj hhead)
  rw [read, if_neg hmark, readStatements_of_written h (Nat.le_refl _), Option.bind_some]

/-! ## Values -/

/-- A text that is read as a value where its line ends after it. -/
structure Spells (w : Text) (v : Toml) : Prop where
  starts : ∀ c ∈ w.head?, isGap c = false
  reads : ∀ rest, readValue maxDepth (w ++ '\n' :: rest) = some (v, '\n' :: rest)

theorem exists_writeString_eq (t : Text) : ∃ c u, writeString t = c :: u ∧ (c = '"' ∨ c = '\'') := by
  unfold writeString
  split_ifs <;> first | exact ⟨'"', _, rfl, .inl rfl⟩ | exact ⟨'\'', _, rfl, .inr rfl⟩

theorem readValue_quote (n : Nat) (h : c = '"' ∨ c = '\'') :
    readValue n (c :: t) = (readString (c :: t)).map fun (s, rest) => (.string s, rest) := by
  rcases h with rfl | rfl <;> cases n <;> rfl

theorem spells_writeString (t : Text) : Spells (writeString t) (.string t) where
  starts c hc := by
    obtain ⟨d, u, heq, hd⟩ := exists_writeString_eq t
    rw [heq] at hc
    obtain rfl := Option.some.inj hc
    rcases hd with rfl | rfl <;> rfl
  reads rest := by
    have hread : readString (writeString t ++ '\n' :: rest) = some (t, '\n' :: rest) :=
      readString_writeString (by simp) (by simp) t
    obtain ⟨c, u, heq, hc⟩ := exists_writeString_eq t
    rw [heq, List.cons_append] at hread ⊢
    rw [readValue_quote maxDepth hc, hread, Option.map_some]

theorem readValue_scalar (n : Nat) (h : isScalarChar c = true) : readValue n (c :: t) = readScalar (c :: t) := by
  have hne : ∀ d u, isScalarChar d = false → c :: t ≠ d :: u := cons_ne_of_class isScalarChar h
  cases n with
  | zero =>
    unfold readValue
    split
    · exact absurd (by assumption) (hne '"' _ rfl)
    · exact absurd (by assumption) (hne '\'' _ rfl)
    · rfl
  | succ n =>
    unfold readValue
    split
    · exact absurd (by assumption) (hne '"' _ rfl)
    · exact absurd (by assumption) (hne '\'' _ rfl)
    · exact absurd (by assumption) (hne '[' _ rfl)
    · exact absurd (by assumption) (hne '{' _ rfl)
    · rfl

theorem spells_scalar (hne : w ≠ []) (hw : ∀ c ∈ w, isScalarChar c = true) (h : scalarOf? w = some v) :
    Spells w v where
  starts c hc := by
    have hscalar := hw c (List.mem_of_mem_head? hc)
    refine Decidable.by_contra fun hgap => ?_
    rw [Bool.not_eq_false, isGap, Bool.or_eq_true, beq_iff_eq, beq_iff_eq] at hgap
    rcases hgap with rfl | rfl <;> cases hscalar
  reads rest := by
    have hread : readScalar (w ++ '\n' :: rest) = some (v, '\n' :: rest) := by
      refine readScalar_append hw (fun c hc => ?_) h
      obtain rfl := Option.some.inj hc
      exact ⟨rfl, by decide⟩
    obtain ⟨c, u, rfl⟩ := List.exists_cons_of_ne_nil hne
    rw [List.cons_append] at hread ⊢
    rw [readValue_scalar maxDepth (hw c List.mem_cons_self), hread]

theorem spells_boolean (b : Bool) : Spells (if b then "true".toList else "false".toList) (.boolean b) := by
  cases b with
  | false => exact spells_scalar (by decide) (List.all_eq_true.1 rfl) rfl
  | true => exact spells_scalar (by decide) (List.all_eq_true.1 rfl) rfl

theorem isScalarChar_of_isDigit (h : Text.isDigit c = true) : isScalarChar c = true := by
  have hdigit : c.isDigit = true := by
    simpa [Text.isDigit, Char.isDigit, Char.le_def] using h
  simp [isScalarChar, Char.isAlphanum, hdigit]

theorem spells_numeral {n : Nat} (h : n < integerBound) : Spells (Text.numeral n) (.integer n) := by
  obtain ⟨c, t, heq, hdigits, -⟩ := Text.exists_numeral_eq n
  refine spells_scalar (heq ▸ List.cons_ne_nil c t) (fun d hd => ?_) (scalarOf?_numeral h)
  exact isScalarChar_of_isDigit (hdigits d (heq ▸ hd))

/-! ## Lines with statements -/

theorem isStart_of_isBare (h : isBare c = true) : isStart c = true := by
  refine Decidable.by_contra fun hstart => ?_
  simp only [isStart, isGap, Bool.not_eq_true', Bool.not_eq_false, Bool.or_eq_true, beq_iff_eq] at hstart
  rcases hstart with ((((rfl | rfl) | rfl) | rfl) | rfl) | rfl <;> cases h

theorem exists_writeKey_eq (t : Text) : ∃ c u, writeKey t = c :: u ∧ isStart c = true ∧ c ≠ '[' := by
  unfold writeKey
  split_ifs with hbare
  · obtain ⟨hne, hbare⟩ := hbare
    obtain ⟨c, u, rfl⟩ := List.exists_cons_of_ne_nil hne
    have hc : isBare c = true := List.all_eq_true.1 hbare c List.mem_cons_self
    exact ⟨c, u, rfl, isStart_of_isBare hc, ne_of_class isBare hc rfl⟩
  · exact ⟨'"', _, rfl, rfl, by decide⟩
  · exact ⟨'\'', _, rfl, rfl, by decide⟩
  · exact ⟨'"', _, rfl, rfl, by decide⟩

theorem readPath_writeKey (n : Nat) (key rest : Text) :
    readPath (n + 1) (writeKey key ++ ' ' :: '=' :: rest) = some ([key], '=' :: rest) := by
  have hread : readKey (writeKey key ++ ' ' :: '=' :: rest) = some (key, ' ' :: '=' :: rest) := by
    refine readKey_writeKey (fun c hc => ?_) key
    obtain rfl := Option.some.inj hc
    rfl
  have hskip : skipGap (writeKey key ++ ' ' :: '=' :: rest) = writeKey key ++ ' ' :: '=' :: rest := by
    obtain ⟨c, u, heq, hc, -⟩ := exists_writeKey_eq key
    rw [heq]
    exact skipGap_cons (isGap_of_isStart hc)
  have hequals : skipGap (' ' :: '=' :: rest) = '=' :: rest := rfl
  simp only [readPath, hskip, hread, hequals]
  rfl

theorem readStatement_pair (hc : c ≠ '[') :
    readStatement (c :: t) =
      match readPair (readValue maxDepth) (c :: t) with
      | none => none
      | some ((path, v), rest) => (readLineEnd rest).map fun rest => (.pair path v, rest) := by
  unfold readStatement
  split
  · rename_i heq
    exact absurd (List.cons.inj heq).1 hc
  · rename_i heq
    exact absurd (List.cons.inj heq).1 hc
  · rfl

/-- A line with a key and a value. -/
theorem isLine_pair (key : Text) (hw : Spells w v) :
    IsLine (writeKey key ++ [' ', '=', ' '] ++ w ++ ['\n']) (.pair [key] v) where
  starts := by
    obtain ⟨c, u, heq, hc, -⟩ := exists_writeKey_eq key
    exact ⟨c, _, by rw [heq, List.append_assoc, List.append_assoc, List.cons_append], hc⟩
  reads rest := by
    have hline : writeKey key ++ [' ', '=', ' '] ++ w ++ ['\n'] ++ rest =
        writeKey key ++ ' ' :: '=' :: (' ' :: (w ++ '\n' :: rest)) := by simp
    have hskip : skipGap (' ' :: (w ++ '\n' :: rest)) = w ++ '\n' :: rest := by
      show skipGap (w ++ '\n' :: rest) = _
      refine skipGap_of_head? fun c hc => ?_
      cases w with
      | nil =>
        obtain rfl := Option.some.inj hc
        rfl
      | cons d w => exact hw.starts c hc
    have hpair : readPair (readValue maxDepth) (writeKey key ++ ' ' :: '=' :: (' ' :: (w ++ '\n' :: rest))) =
        some (([key], v), '\n' :: rest) := by
      simp only [readPair, maxDepth, readPath_writeKey, hskip]
      rw [show (79 : Nat) = maxDepth from rfl, hw.reads, Option.map_some]
    obtain ⟨c, u, heq, -, hc⟩ := exists_writeKey_eq key
    rw [hline]
    rw [heq, List.cons_append] at hpair ⊢
    simp only [readStatement_pair hc, hpair, readLineEnd_break, Option.map_some]

/-- A line with the header of a table. -/
theorem isLine_header (hfirst : w.head? ≠ some '[')
    (hpath : ∀ rest, readPath maxDepth (w ++ ']' :: rest) = some (path, ']' :: rest)) :
    IsLine ('[' :: w ++ [']', '\n']) (.header path) where
  starts := ⟨'[', _, rfl, rfl⟩
  reads rest := by
    have hline : '[' :: w ++ [']', '\n'] ++ rest = '[' :: (w ++ ']' :: '\n' :: rest) := by simp
    rw [hline]
    unfold readStatement
    split
    · rename_i heq
      cases w with
      | nil => exact absurd (List.cons.inj (List.cons.inj heq).2).1 (by decide)
      | cons d w => exact absurd (congrArg some (List.cons.inj (List.cons.inj heq).2).1) hfirst
    · rename_i heq
      obtain ⟨-, rfl⟩ := List.cons.inj heq
      simp only [hpath, readLineEnd_break, Option.map_some]
    · rename_i hplain
      exact absurd rfl (hplain _)

end DoomLex.Toml
