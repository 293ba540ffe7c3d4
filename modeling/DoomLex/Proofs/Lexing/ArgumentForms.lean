/-
Arguments of merge scripts and what they stand in. Where words, comments and literals of a line start and end
can be told from the text alone, arguments in them or not: a number sign or a quote within a word starts
nothing. A token of a merge script is split out of its line if it is of a part of the line that goes with its
kind; if, being an argument, it could not go on with the next character; and if no dollar sign in it should have
started an argument. Pieces into which a literal or a comment is cut for the sake of links stay so.
-/
import DoomLex.Grammar.MergeScript
import DoomLex.Proofs.Lexing.Surroundings
import DoomLex.Proofs.Text.Characters

namespace DoomLex

namespace Text

/-- Each character of the text has the property, after the characters before it. -/
def Along (Q : Text → Char → Prop) (t : Text) : Prop := ∀ u c v, t = u ++ c :: v → Q u c

variable {Q : Text → Char → Prop} {t : Text} {c : Char}

theorem along_nil : Along Q [] := by
  intro u c v h
  exact absurd h.symm (List.append_ne_nil_of_right_ne_nil _ (List.cons_ne_nil _ _))

theorem along_concat : Along Q (t ++ [c]) ↔ Along Q t ∧ Q t c := by
  constructor
  · intro h
    refine ⟨?_, h t c [] rfl⟩
    rintro u d v rfl
    exact h u d (v ++ [c]) (by simp)
  · rintro ⟨ht, hc⟩ u d v h
    rcases List.eq_nil_or_concat' v with rfl | ⟨v, x, rfl⟩
    · obtain ⟨rfl, hd⟩ := List.append_inj' h rfl
      obtain rfl := List.singleton_inj.1 hd
      exact hc
    · rw [← List.cons_append, ← List.append_assoc] at h
      obtain ⟨rfl, -⟩ := List.append_inj' h rfl
      exact ht u d v rfl

/-- What holds along a text holds along a piece of it, after what stands before the piece. -/
theorem Along.piece {x y z : Text} (h : Along Q (x ++ y ++ z)) : Along (fun u c => Q (x ++ u) c) y := by
  rintro u c v rfl
  exact h (x ++ u) c (v ++ z) (by simp)

end Text

namespace MergeScript

/-! ## Arguments -/

/-- The texts of the forms of arguments: the sigil alone, with digits, and with a name. -/
def Argument.Spells : Argument → Text → Prop
  | sigil, w => w = ['$']
  | positional, w => ∃ digits, w = '$' :: digits ∧ digits ≠ [] ∧ ∀ c ∈ digits, Text.isDigit c = true
  | named, w => ∃ c rest, w = '$' :: c :: rest ∧ (Text.isAlphabetic c = true ∨ c = '_') ∧
      ∀ d ∈ rest, Text.isAlphanumeric d = true ∨ d = '_'

/-- The text of an argument. -/
def IsArgument (w : Text) : Prop := ∃ a : Argument, a.Spells w

namespace Argument

variable {a b : Argument} {w : Text} {c : Char}

theorem foldlM_step_of_stays {p : Char → Bool} (hstep : ∀ c, a.step c = if p c then some a else none)
    (t : Text) : t.foldlM step a = some b ↔ b = a ∧ ∀ c ∈ t, p c = true := by
  induction t with
  | nil =>
    constructor
    · intro h
      exact ⟨(Option.some.inj h).symm, List.forall_mem_nil _⟩
    · rintro ⟨rfl, -⟩
      rfl
  | cons c t ih =>
    rw [List.foldlM_cons, hstep, List.forall_mem_cons]
    cases hc : p c with
    | false => simp
    | true =>
      show t.foldlM step a = some b ↔ _
      rw [ih]
      simp

theorem foldlM_positional (t : Text) :
    t.foldlM step positional = some b ↔ b = positional ∧ ∀ c ∈ t, Text.isDigit c = true :=
  foldlM_step_of_stays (fun _ => rfl) t

theorem foldlM_named (t : Text) : t.foldlM step named = some b ↔
    b = named ∧ ∀ c ∈ t, Text.isAlphanumeric c = true ∨ c = '_' := by
  have hstays := foldlM_step_of_stays (a := named) (b := b)
    (p := fun c => Text.isAlphanumeric c || c == '_') (fun _ => rfl) t
  simpa only [Bool.or_eq_true, beq_iff_eq] using hstays

theorem step_sigil_of_digit (h : Text.isDigit c = true) : sigil.step c = some positional := by
  simp [step, h]

theorem step_sigil_of_letter (h : Text.isAlphabetic c = true ∨ c = '_') : sigil.step c = some named := by
  have hdigit := Text.isDigit_of_letter h
  simp [step, hdigit, h]

/-- The texts of arguments are those that the scan reads as such. -/
theorem spells_iff : a.Spells w ↔ ∃ t, w = '$' :: t ∧ t.foldlM step sigil = some a := by
  constructor
  · intro h
    cases a with
    | sigil => exact ⟨[], h, rfl⟩
    | positional =>
      obtain ⟨digits, rfl, hne, hdigits⟩ := h
      obtain ⟨c, digits, rfl⟩ := List.exists_cons_of_ne_nil hne
      obtain ⟨hc, hdigits⟩ := List.forall_mem_cons.1 hdigits
      refine ⟨_, rfl, ?_⟩
      rw [List.foldlM_cons, step_sigil_of_digit hc]
      exact (foldlM_positional digits).2 ⟨rfl, hdigits⟩
    | named =>
      obtain ⟨c, rest, rfl, hc, hrest⟩ := h
      refine ⟨_, rfl, ?_⟩
      rw [List.foldlM_cons, step_sigil_of_letter hc]
      exact (foldlM_named rest).2 ⟨rfl, hrest⟩
  · rintro ⟨t, rfl, h⟩
    cases t with
    | nil =>
      obtain rfl : sigil = a := Option.some.inj h
      rfl
    | cons c t =>
      rw [List.foldlM_cons] at h
      by_cases hdigit : Text.isDigit c = true
      · rw [step_sigil_of_digit hdigit] at h
        obtain ⟨rfl, ht⟩ := (foldlM_positional t).1 h
        exact ⟨c :: t, rfl, List.cons_ne_nil _ _, List.forall_mem_cons.2 ⟨hdigit, ht⟩⟩
      · by_cases hletter : Text.isAlphabetic c = true ∨ c = '_'
        · rw [step_sigil_of_letter hletter] at h
          obtain ⟨rfl, ht⟩ := (foldlM_named t).1 h
          exact ⟨c, t, rfl, hletter, ht⟩
        · simp [step, hdigit, hletter] at h

theorem Spells.step (h : a.Spells w) (hc : a.step c = some b) : b.Spells (w ++ [c]) := by
  obtain ⟨t, rfl, ht⟩ := spells_iff.1 h
  refine spells_iff.2 ⟨t ++ [c], rfl, ?_⟩
  rw [List.foldlM_append, ht]
  show [c].foldlM Argument.step a = some b
  rw [List.foldlM_cons, hc]
  rfl

/-- An argument that ends before a character could not have gone on with it in any form. -/
theorem Spells.not_isArgument (h : a.Spells w) (hc : a.step c = none) : ¬ IsArgument (w ++ [c]) := by
  rintro ⟨b, hb⟩
  obtain ⟨t, rfl, ht⟩ := spells_iff.1 h
  obtain ⟨t', heq, ht'⟩ := spells_iff.1 hb
  obtain rfl : t ++ [c] = t' := (List.cons.inj heq).2
  rw [List.foldlM_append, ht] at ht'
  have hlast : [c].foldlM Argument.step a = some b := ht'
  rw [List.foldlM_cons, hc] at hlast
  cases hlast

theorem step_dollar (a : Argument) : a.step '$' = none := by cases a <;> rfl

theorem step_newline (a : Argument) : a.step '\n' = none := by cases a <;> rfl

/-- The only dollar sign of an argument is its first character. -/
theorem Spells.eq_nil_of_dollar {u v : Text} (h : a.Spells (u ++ '$' :: v)) : u = [] := by
  obtain ⟨t, heq, ht⟩ := spells_iff.1 h
  cases u with
  | nil => rfl
  | cons d u =>
    obtain rfl : u ++ '$' :: v = t := (List.cons.inj heq).2
    rw [List.foldlM_append] at ht
    cases hu : u.foldlM Argument.step sigil with
    | none => rw [hu] at ht; cases ht
    | some b =>
      rw [hu] at ht
      have hrest : ('$' :: v).foldlM Argument.step b = some a := ht
      rw [List.foldlM_cons, step_dollar] at hrest
      cases hrest

theorem isBlank_of_step (h : a.step c = some b) : Text.isBlank c = false := by
  have hnamed : Text.isAlphanumeric c = true ∨ c = '_' → Text.isBlank c = false := by
    rintro (hc | rfl)
    · exact Text.isBlank_of_isAlphanumeric hc
    · rfl
  have hdigit : Text.isDigit c = true → Text.isBlank c = false :=
    fun hc => Text.isBlank_of_isAlphanumeric (Text.isAlphanumeric_of_isDigit hc)
  cases a with
  | sigil =>
    simp only [Argument.step] at h
    split_ifs at h with hc hletter
    · exact hdigit hc
    · rw [Bool.or_eq_true, beq_iff_eq] at hletter
      exact hnamed (hletter.imp_left Text.isAlphanumeric_of_isAlphabetic)
  | positional =>
    simp only [Argument.step] at h
    split_ifs at h with hc
    exact hdigit hc
  | named =>
    simp only [Argument.step] at h
    split_ifs at h with hc
    rw [Bool.or_eq_true, beq_iff_eq] at hc
    exact hnamed hc

/-- A digit carries every argument on. -/
theorem isDigit_of_step_eq_none (h : a.step c = none) : Text.isDigit c = false := by
  cases hc : Text.isDigit c with
  | false => rfl
  | true =>
    have halnum := Text.isAlphanumeric_of_isDigit hc
    cases a <;> simp [Argument.step, hc, halnum] at h

end Argument

/-! ## Parts of lines -/

/-- What a place between two characters of a line lies in; `taken` says that in the literal the next character
is the second member of a pair with a backslash. -/
inductive Region where
  | outside
  | word
  | comment
  | literal (taken : Bool)

/-- What a character is part of, arguments not told from what they stand in. -/
inductive Part where
  | blank | comment | word | literal

namespace Region

/-- What the next character is part of. Line breaks are blanks and end everything. -/
def part (r : Region) (c : Char) : Part :=
  if c = '\n' then .blank
  else
    match r with
    | outside =>
      if c = '#' then .comment else if c = '"' then .literal else if Text.isBlank c then .blank else .word
    | word => if Text.isBlank c then .blank else .word
    | comment => .comment
    | literal _ => .literal

/-- What the place after the next character lies in. -/
def next (r : Region) (c : Char) : Region :=
  match r.part c, r with
  | .blank, _ => outside
  | .comment, _ => comment
  | .word, _ => word
  | .literal, literal taken => if c = '"' ∧ taken = false then outside else literal (!taken && c == '\\')
  | .literal, _ => literal false

variable {c : Char}

theorem part_dollar (r : Region) : r.part '$' ≠ .blank := by cases r <;> exact Part.noConfusion

/-- A blank ends a word and leads nowhere else from outside. -/
theorem next_blank {r : Region} (hr : r = outside ∨ r = word) (hblank : Text.isBlank c = true) :
    r.part c = .blank ∧ r.next c = outside := by
  have hsign : c ≠ '#' := by rintro rfl; exact absurd hblank (by decide)
  have hquote : c ≠ '"' := by rintro rfl; exact absurd hblank (by decide)
  have hpart : r.part c = .blank := by rcases hr with rfl | rfl <;> simp [part, hsign, hquote, hblank]
  exact ⟨hpart, by simp [next, hpart]⟩

/-- A word goes on to the next blank. -/
theorem next_word (hblank : Text.isBlank c = false) : word.part c = .word ∧ word.next c = word := by
  have hc : c ≠ '\n' := by rintro rfl; exact absurd hblank (by decide)
  have hpart : word.part c = .word := by simp [part, hc, hblank]
  exact ⟨hpart, by simp [next, hpart]⟩

theorem next_comment (hc : c ≠ '\n') : comment.part c = .comment ∧ comment.next c = comment := by
  have hpart : comment.part c = .comment := by simp [part, hc]
  exact ⟨hpart, by simp [next, hpart]⟩

/-- A literal goes on to its closing quote. -/
theorem next_literal {taken : Bool} (hc : c ≠ '\n') (hclosing : (c, taken) ≠ Literal.closingQuote) :
    (literal taken).part c = .literal ∧ (literal taken).next c = literal (!taken && c == '\\') := by
  have hpart : (literal taken).part c = .literal := by simp [part, hc]
  have hopen : ¬ (c = '"' ∧ taken = false) := by
    rintro ⟨rfl, rfl⟩
    exact hclosing rfl
  refine ⟨hpart, ?_⟩
  simp only [next, hpart, if_neg hopen]

end Region

/-- What the place after a text lies in. -/
def regionAfter (t : Text) : Region := t.foldl Region.next .outside

theorem regionAfter_concat (t : Text) (c : Char) : regionAfter (t ++ [c]) = (regionAfter t).next c := by
  simp [regionAfter]

theorem regionAfter_of_atLineStart {t : Text} (h : t.AtLineStart) : regionAfter t = .outside := by
  rcases List.eq_nil_or_concat' t with rfl | ⟨t, c, rfl⟩
  · rfl
  · obtain rfl : c = '\n' := h c (by simp)
    rw [regionAfter_concat]
    cases regionAfter t <;> rfl

/-- The kinds of tokens that characters of a part belong to. -/
def Part.kinds : Part → List Kind
  | blank => [.whitespace]
  | comment => [.lineComment]
  | word => [.identifier, .reservedWord, .decimal, .argument]
  | literal => [.string, .errorString, .errorEscape, .argument]

/-- The names of the commands. -/
def commands : List String :=
  ["END", "CREATE", "CREATEFILE", "CLEAR", "DISCARD", "SAVE", "LOAD", "FINISH", "VALID", "MARKER",
    "DATEMARKER", "MERGE", "MERGEWAD", "MERGEFILE", "MERGEMAP", "MERGEMAPFILE", "MERGEDIR",
    "MERGESWANTBLS", "MERGEDEUTEXFILE", "MERGETEXTUREDIR"]

/-- The kind of a piece of a word. -/
def pieceKind (w : Text) : Kind :=
  if w.all Text.isDigit then .decimal
  else if commands.any (fun name => Text.sameFolded name.toList w) then .reservedWord
  else .identifier

/-- How a token stands in its line: between `before` and `after`. -/
structure SplitOut (before : Text) (kind : Kind) (text after : Text) : Prop where
  /-- Its characters belong to a part of the line that it can be of. -/
  parts : text.Along fun u c => kind ∈ ((regionAfter (before ++ u)).part c).kinds
  /-- Nothing starts within it. -/
  starts : text.Along fun u c => regionAfter (before ++ u) = .outside → Text.isBlank c = false → u = []
  /-- An argument is one as it stands, and would be none with the next character. -/
  argument : kind = .argument → IsArgument text ∧ ∀ c ∈ after.head?, ¬ IsArgument (text ++ [c])
  /-- A dollar sign starts an argument, which in a literal that its line leaves open may be its last piece. -/
  sigil : kind ≠ .lineComment → kind ≠ .errorEscape → text.Along fun u c =>
    c = '$' → regionAfter (before ++ u) ≠ .literal true →
      u = [] ∧ (kind = .argument ∨ kind = .errorString ∧ IsArgument text ∧ after.AtLineEnd)
  /-- A piece of a word goes on to the next dollar sign or blank, and its kind is that of its text. -/
  piece : kind ∈ [.identifier, .reservedWord, .decimal] →
    text ≠ [] ∧ (∀ c ∈ text, c ≠ '$' ∧ Text.isBlank c = false) ∧
      (∀ c ∈ after.head?, c = '$' ∨ Text.isBlank c = true) ∧ kind = pieceKind text

theorem cuts_splitOut : Surrounded.Cuts SplitOut := by
  intro before kind x y z after hform h
  have hkind : kind ∉ [.argument, .errorString, .identifier, .reservedWord, .decimal] := by
    cases kind <;> simp [Kind.linkForm?] at hform ⊢
  simp only [List.mem_cons, List.not_mem_nil, or_false, not_or] at hkind
  obtain ⟨hargument, hopen, hname, hword, hnumber⟩ := hkind
  constructor
  · intro u c v hy
    have hc : kind ∈ ((regionAfter (before ++ (x ++ u))).part c).kinds := h.parts.piece u c v hy
    rwa [← List.append_assoc] at hc
  · intro u c v hy hregion hblank
    rw [List.append_assoc] at hregion
    have hnil := h.starts.piece u c v hy hregion hblank
    exact (List.append_eq_nil_iff.1 hnil).2
  · intro hkind
    exact absurd hkind hargument
  · intro hcomment hescape u c v hy hc hregion
    rw [List.append_assoc] at hregion
    obtain ⟨-, hkind | ⟨hkind, -⟩⟩ := (h.sigil hcomment hescape).piece u c v hy hc hregion
    · exact absurd hkind hargument
    · exact absurd hkind hopen
  · intro hkind
    simp [hname, hword, hnumber] at hkind

end MergeScript

end DoomLex
