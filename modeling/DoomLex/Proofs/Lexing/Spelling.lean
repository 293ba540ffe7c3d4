/-
Words, punctuation and blanks in programs with braces. Every token of one of these sorts tells by its text, and
by the characters next to it, why it is one: a word has no break in it and ends at one, a run of punctuation
goes on as far as it can, and so does a run of blanks, to both sides. The scan keeps for each of its states what
the pending run looks like, and never stands between tokens behind a blank that the next character could join.
-/
import DoomLex.Proofs.Lexing.Case
import DoomLex.Proofs.Lexing.Numbers

namespace DoomLex

namespace Text

/-- The text does not end in a blank, a line break apart. -/
def EndsSolid (t : Text) : Prop := ∀ c ∈ t.getLast?, isBlank c = true → c = '\n'

/-- Blanks that stand within a line, with no blank of the line next to them. -/
structure IsBlankRun (before text after : Text) : Prop where
  nonempty : text ≠ []
  blank : ∀ c ∈ text, isBlank c = true ∧ c ≠ '\n'
  maximalLeft : before.EndsSolid
  maximalRight : ∀ c ∈ after.head?, isBlank c = true → c = '\n'

theorem endsSolid_concat {t : Text} {c : Char} (hc : isBlank c = false) : EndsSolid (t ++ [c]) := by
  intro c' hc' hblank
  rw [List.getLast?_concat] at hc'
  obtain rfl := Option.some.inj hc'
  rw [hc] at hblank
  cases hblank

theorem EndsSolid.append {t u : Text} (hu : u ≠ []) (h : EndsSolid u) : EndsSolid (t ++ u) := by
  intro c hc
  rw [List.getLast?_append_of_ne_nil t hu] at hc
  exact h c hc

theorem AtLineStart.endsSolid {t : Text} (h : t.AtLineStart) : t.EndsSolid := fun c hc _ => h c hc

end Text

namespace Dialect

/-! ## Words of the tables -/

/-- The word table has the word, in some case of its ASCII letters, and gives it the kind. -/
def Lists (d : Dialect) (word : Text) (kind : Kind) : Prop :=
  ∃ e ∈ d.words.entries, Text.sameFolded e.1 word = true ∧ e.2 = kind

theorem get?_words_eq_some_iff {d : Dialect} {word : Text} {kind : Kind} :
    d.words.get? word = some kind ↔ d.Lists word kind := by
  have hfolded : ∀ e ∈ d.words.entries, d.words.rule.fold e.1 = e.1 := by
    intro e he
    rw [d.rule_words]
    cases d <;> exact WordTable.fold_eq_of_mem_ofList he
  rw [WordTable.get?_eq_some_iff hfolded, d.rule_words]
  simp only [Lists, Text.sameFolded_iff, CaseRule.fold_insensitive]

theorem Lists.kind_mem {d : Dialect} {word : Text} {kind : Kind} (h : d.Lists word kind) :
    kind ∈ [.reservedWord, .boolean, .decimal, .float] := by
  have hall : d.words.entries.all (fun e => e.2 ∈ [.reservedWord, .boolean, .decimal, .float]) = true := by
    cases d <;> decide +kernel
  obtain ⟨e, he, -, rfl⟩ := h
  exact of_decide_eq_true (List.all_eq_true.1 hall e he)

/-- The name starts with the mark of functions. -/
def Marked (name : Text) : Prop := ∃ c rest, name = c :: '_' :: rest ∧ (c = 'a' ∨ c = 'A')

theorem foldCase_take_two_eq_iff {name : Text} : Text.foldCase (name.take 2) = ['a', '_'] ↔ Marked name := by
  have hletter : ∀ c : Char, c.toLower = 'a' ↔ c = 'a' ∨ c = 'A' := by
    intro c
    constructor
    · intro h
      rcases Text.toLower_eq_self_or_mem_capitals c with hc | hc
      · exact .inl (hc.symm.trans h)
      · have hall : Text.capitals.all (fun c => c.toLower != 'a' || c == 'A') = true := by decide
        have hcapital := List.all_eq_true.1 hall c hc
        rw [h] at hcapital
        exact .inr (by simpa using hcapital)
    · rintro (rfl | rfl) <;> rfl
  match name with
  | [] => simp [Marked]
  | [c] => simp [Marked]
  | c :: c' :: rest =>
    have hbar : c'.toLower = '_' ↔ c' = '_' := Text.toLower_eq_iff rfl
    simp only [List.take_succ_cons, List.take_zero, Text.foldCase_cons, Text.foldCase_nil, List.cons.injEq,
      and_true, hletter, hbar, Marked]
    constructor
    · rintro ⟨hc, rfl⟩
      exact ⟨c, rest, ⟨rfl, rfl, rfl⟩, hc⟩
    · rintro ⟨a, rest', ⟨rfl, rfl, rfl⟩, ha⟩
      exact ⟨ha, rfl⟩

/-! ## What the tokens look like -/

/-- A delimiter that is no separator and starts neither a literal nor a comment. -/
def Punctuates (d : Dialect) (c : Char) : Prop :=
  c ∈ d.delimiters.chars ∧ c ∉ d.separators.chars ∧ c ≠ '"' ∧ c ≠ '`' ∧ c ≠ '/'

/-- A word and what comes after it: no break is in it, one or the end comes next, and the kind is that of the
word table, for words in it, or else that of functions or of plain names. -/
structure IsWord (d : Dialect) (kind : Kind) (text after : Text) : Prop where
  nonempty : text ≠ []
  unbroken : ∀ c ∈ text, Text.isBlank c = false ∧ c ∉ d.delimiters.chars
  first : ∀ c ∈ text.head?, c ≠ '#' ∧ Text.isDigit c = false
  ends : ∀ c ∈ after.head?, Text.isBlank c = true ∨ c ∈ d.delimiters.chars
  listed : ∀ k, d.Lists text k → kind = k
  unlisted : (∀ k, ¬ d.Lists text k) →
    (d = .patch ∧ Marked text → kind = .function) ∧ (¬ (d = .patch ∧ Marked text) → kind = .identifier)
  unclaimed : kind = .identifier ∨ kind = .function → ∀ k, ¬ d.Lists text k

/-- A run of punctuation that nothing after it carries on. -/
structure IsPunctuation (d : Dialect) (text after : Text) : Prop where
  nonempty : text ≠ []
  punctuates : ∀ c ∈ text, d.Punctuates c
  maximal : ∀ c ∈ after.head?, ¬ d.Punctuates c

/-- What a token looks like that is a word, punctuation or blank. -/
structure Spelled (d : Dialect) (before : Text) (kind : Kind) (text after : Text) : Prop where
  word : kind ∈ [.identifier, .function, .reservedWord, .boolean] → d.IsWord kind text after
  operator : kind = .operator → text ∈ d.operators ∧ d.IsPunctuation text after ∨
    text = ['/'] ∧ ∀ c ∈ after.head?, c ≠ '/' ∧ c ≠ '*'
  separator : kind = .separator → (∃ c ∈ d.separators.chars, text = [c]) ∨
    text ∉ d.operators ∧ d.IsPunctuation text after
  whitespace : kind = .whitespace → text = ['\n'] ∨ Text.IsBlankRun before text after

section Spelled

variable {d : Dialect} {before text after : Text} {kind : Kind} {c : Char}

theorem extendsPunctuation_iff : d.extendsPunctuation c = true ↔ d.Punctuates c := by
  have hdelimiter : d.delimiters.contains c = true ↔ c ∈ d.delimiters.chars := Alphabet.contains_iff_mem_chars
  have hseparator : d.separators.contains c = true ↔ c ∈ d.separators.chars := Alphabet.contains_iff_mem_chars
  simp [extendsPunctuation, Punctuates, ← hdelimiter, ← hseparator, and_assoc]

theorem isBreak_iff : d.isBreak c = true ↔ Text.isBlank c = true ∨ c ∈ d.delimiters.chars := by
  rw [isBreak, Bool.or_eq_true, Alphabet.contains_iff_mem_chars]

/-- No punctuation is blank. -/
theorem isBlank_of_mem_chars (h : c ∈ d.delimiters.chars ∨ c ∈ d.separators.chars) :
    Text.isBlank c = false := by
  have hdelimiters : d.delimiters.chars.all (!Text.isBlank ·) = true := by
    cases d <;> decide +kernel
  have hseparators : d.separators.chars.all (!Text.isBlank ·) = true := by
    cases d <;> decide +kernel
  rcases h with h | h
  · simpa using Array.all_eq_true_iff_forall_mem.1 hdelimiters c h
  · simpa using Array.all_eq_true_iff_forall_mem.1 hseparators c h

/-- The kinds of words, punctuation and blanks. -/
def spelledKinds : List Kind :=
  [.identifier, .function, .reservedWord, .boolean, .operator, .separator, .whitespace]

theorem spelled_of_notMem (h : kind ∉ spelledKinds) : d.Spelled before kind text after := by
  simp only [spelledKinds, List.mem_cons, List.not_mem_nil, or_false, not_or] at h
  obtain ⟨hidentifier, hfunction, hreserved, hboolean, hoperator, hseparator, hwhitespace⟩ := h
  constructor
  · simp [hidentifier, hfunction, hreserved, hboolean]
  · exact fun hkind => absurd hkind hoperator
  · exact fun hkind => absurd hkind hseparator
  · exact fun hkind => absurd hkind hwhitespace

theorem cuts_spelled : Surrounded.Cuts d.Spelled := by
  intro before kind x y z after hform _
  apply spelled_of_notMem
  cases kind <;> simp [Kind.linkForm?, spelledKinds] at hform ⊢

theorem isWord_wordKind (hne : text ≠ []) (hunbroken : ∀ c ∈ text, d.isBreak c = false)
    (hfirst : ∀ c ∈ text.head?, c ≠ '#' ∧ Text.isDigit c = false) (hafter : d.BreakNext after) :
    d.IsWord (d.wordKind text) text after := by
  have hchars : ∀ c ∈ text, Text.isBlank c = false ∧ c ∉ d.delimiters.chars := by
    intro c hc
    have h := mt isBreak_iff.2 (Bool.eq_false_iff.1 (hunbroken c hc))
    rw [not_or, Bool.not_eq_true] at h
    exact h
  have hends : ∀ c ∈ after.head?, Text.isBlank c = true ∨ c ∈ d.delimiters.chars :=
    fun c hc => isBreak_iff.1 (hafter c hc)
  cases hget : d.words.get? text with
  | some k =>
    have hkind : d.wordKind text = k := by simp [wordKind, hget]
    have hlists := get?_words_eq_some_iff.1 hget
    refine ⟨hne, hchars, hfirst, hends, ?_, fun h => absurd hlists (h k), ?_⟩
    · intro k' hk'
      rw [get?_words_eq_some_iff.2 hk'] at hget
      rw [hkind, Option.some.inj hget]
    · -- no kind of the table is that of names
      have hmem := hlists.kind_mem
      rw [hkind]
      rintro (rfl | rfl) <;> simp at hmem
  | none =>
    have hlists : ∀ k, ¬ d.Lists text k := by
      intro k hk
      rw [get?_words_eq_some_iff.2 hk] at hget
      cases hget
    have hmarks : d.marksFunctions = true ↔ d = .patch := by cases d <;> decide
    have hkind : d.wordKind text =
        if d.marksFunctions && Text.foldCase (text.take 2) == ['a', '_'] then .function else .identifier := by
      rw [wordKind, hget]
    refine ⟨hne, hchars, hfirst, hends, fun k hk => absurd hk (hlists k), fun _ => ⟨?_, ?_⟩, fun _ => hlists⟩
    · intro h
      rw [hkind, if_pos]
      simpa [hmarks, foldCase_take_two_eq_iff] using h
    · intro h
      rw [hkind, if_neg]
      simpa [hmarks, foldCase_take_two_eq_iff] using h

theorem spelled_wordKind (h : d.IsWord (d.wordKind text) text after) :
    d.Spelled before (d.wordKind text) text after := by
  have hkind : d.wordKind text ∉ [.operator, .separator, .whitespace] := by
    by_cases hlists : ∃ k, d.Lists text k
    · obtain ⟨k, hk⟩ := hlists
      have hmem := hk.kind_mem
      rw [h.listed k hk]
      simp only [List.mem_cons, List.not_mem_nil, or_false] at hmem
      rcases hmem with rfl | rfl | rfl | rfl <;> decide
    · rw [not_exists] at hlists
      obtain ⟨hfunction, hidentifier⟩ := h.unlisted hlists
      by_cases hmark : d = .patch ∧ Marked text
      · rw [hfunction hmark]
        decide
      · rw [hidentifier hmark]
        decide
  simp only [List.mem_cons, List.not_mem_nil, or_false, not_or] at hkind
  exact ⟨fun _ => h, fun hop => absurd hop hkind.1, fun hsep => absurd hsep hkind.2.1,
    fun hblank => absurd hblank hkind.2.2⟩

theorem spelled_punctuationKind (h : d.IsPunctuation text after) :
    d.Spelled before (d.punctuationKind text) text after := by
  unfold punctuationKind
  split_ifs with hmem
  · rw [List.contains_iff_mem] at hmem
    exact ⟨by simp, fun _ => .inl ⟨hmem, h⟩, nofun, nofun⟩
  · rw [List.contains_iff_mem] at hmem
    exact ⟨by simp, nofun, fun _ => .inr ⟨hmem, h⟩, nofun⟩

theorem spelled_separator (hc : d.separators.contains c = true) : d.Spelled before .separator [c] after :=
  ⟨by simp, nofun, fun _ => .inl ⟨c, Alphabet.contains_iff_mem_chars.1 hc, rfl⟩, nofun⟩

theorem spelled_slash (h : ∀ c ∈ after.head?, c ≠ '/' ∧ c ≠ '*') : d.Spelled before .operator ['/'] after :=
  ⟨by simp, fun _ => .inr ⟨rfl, h⟩, nofun, nofun⟩

theorem spelled_blank (h : text = ['\n'] ∨ Text.IsBlankRun before text after) :
    d.Spelled before .whitespace text after :=
  ⟨by simp, nofun, nofun, fun _ => h⟩

end Spelled

end Dialect

namespace Braces

open Dialect (Spelled)

/-! ## The invariant of the scan -/

/-- What the pending run looks like in each state, and between tokens what stands before it. -/
def SpellingInv (d : Dialect) (before : Text) : Scan → Text → Prop
  | .neutral, run => run = [] ∧ before.EndsSolid
  | .blank, run => run ≠ [] ∧ (∀ c ∈ run, Text.isBlank c = true ∧ c ≠ '\n') ∧ before.EndsSolid
  | .slash, run => run = ['/']
  | .punctuation, run => run ≠ [] ∧ ∀ c ∈ run, d.Punctuates c
  | .word, run => run ≠ [] ∧ (∀ c ∈ run, d.isBreak c = false) ∧
      ∀ c ∈ run.head?, c ≠ '#' ∧ Text.isDigit c = false
  | .numeral _, run => run ≠ [] ∧ run.EndsSolid
  | _, _ => True

section Steps

variable {d : Dialect} {before run after : Text} {s : Scan} {c : Char}

theorem step_of_isBlank (n : Numeral) (h : Text.isBlank c = true) : n.step d c = none := by
  -- all that numbers are made of is alphanumeric, but the point and the two signs
  have halnum : Text.isAlphanumeric c = false := by
    by_contra hc
    rw [Text.isBlank_of_isAlphanumeric (by simpa using hc)] at h
    cases h
  have hdigit : Text.isDigit c = false := by
    by_contra hc
    rw [Text.isAlphanumeric_of_isDigit (by simpa using hc)] at halnum
    cases halnum
  have hhex : Text.isHexDigit c = false := by
    by_contra hc
    rw [Text.isAlphanumeric_of_isHexDigit (by simpa using hc)] at halnum
    cases halnum
  have hmarks : c ≠ 'x' ∧ c ≠ 'X' ∧ c ≠ 'e' ∧ c ≠ 'E' ∧ c ≠ '.' ∧ c ≠ '+' ∧ c ≠ '-' := by
    refine ⟨?_, ?_, ?_, ?_, ?_, ?_, ?_⟩ <;> (rintro rfl; exact absurd h (by decide))
  have hbreak : d.isBreak c = true := Dialect.isBreak_iff.2 (.inl h)
  cases n <;> simp [Numeral.step, Numeral.startsExponent, Numeral.onDigits, hdigit, hhex, hbreak, hmarks]

theorem isBlank_of_numeral_step {n n' : Numeral} (h : n.step d c = some n') : Text.isBlank c = false := by
  by_contra hblank
  rw [step_of_isBlank n (by simpa using hblank)] at h
  cases h

theorem eq_slash_of_block_step {b : Block} (h : b.step c = none) : c = '/' := by
  cases b <;> simp only [Block.step] at h <;> split_ifs at h <;> assumption

theorem spelled_neutral (hc : c ≠ '\n') (hbefore : Text.isBlank c = true → before.EndsSolid) :
    (machine d).UpholdsAt (SpellingInv d) d.Spelled before .neutral [] c := by
  have htrivial : ∀ {s'}, (machine d).answer .neutral c = .take s' → SpellingInv d before s' [c] →
      (machine d).UpholdsAt (SpellingInv d) d.Spelled before .neutral [] c :=
    fun hanswer hinv => Machine.upholdsAt_of_take hanswer hinv
  have hanswer : (machine d).answer .neutral c = start d c := rfl
  unfold start at hanswer
  split at hanswer
  · exact htrivial hanswer trivial
  rename_i hsign
  split at hanswer
  · rename_i hblank
    exact htrivial hanswer ⟨List.cons_ne_nil _ _, by simp [hblank, hc], hbefore hblank⟩
  rename_i hblank
  rw [Bool.not_eq_true] at hblank
  split at hanswer
  · exact htrivial hanswer trivial
  rename_i hquote
  split at hanswer
  · exact htrivial hanswer trivial
  rename_i hbackquote
  split at hanswer
  · rename_i hslash
    subst hslash
    exact htrivial hanswer rfl
  rename_i hslash
  split at hanswer
  · rename_i hseparator
    refine Machine.upholdsAt_of_close hanswer (fun _ => Dialect.spelled_separator hseparator) ⟨rfl, ?_⟩
    exact Text.endsSolid_concat hblank
  rename_i hseparator
  split at hanswer
  · rename_i hdelimiter
    have hpunctuates : d.Punctuates c := by
      rw [← Dialect.extendsPunctuation_iff]
      simp [Dialect.extendsPunctuation, hdelimiter, hseparator, hquote, hbackquote, hslash]
    exact htrivial hanswer ⟨List.cons_ne_nil _ _, by simpa using hpunctuates⟩
  rename_i hdelimiter
  have hsolid : Text.EndsSolid [c] := Text.endsSolid_concat (t := []) hblank
  split at hanswer
  · exact htrivial hanswer ⟨List.cons_ne_nil _ _, hsolid⟩
  split at hanswer
  · exact htrivial hanswer ⟨List.cons_ne_nil _ _, hsolid⟩
  · rename_i hdigit
    rw [Bool.not_eq_true] at hdigit
    have hbreak : d.isBreak c = false := by simp [Dialect.isBreak, hblank, hdelimiter]
    exact htrivial hanswer ⟨List.cons_ne_nil _ _, by simpa using hbreak, by simpa using ⟨hsign, hdigit⟩⟩

/-- A run that a character closes between two others leaves no blank behind it. -/
theorem spelled_close {kind : Kind} (hanswer : (machine d).answer s c = .close kind .neutral)
    (hkind : kind ∉ Dialect.spelledKinds) (hc : Text.isBlank c = false) :
    (machine d).UpholdsAt (SpellingInv d) d.Spelled before s run c := by
  refine Machine.upholdsAt_of_close hanswer (fun _ => Dialect.spelled_of_notMem hkind) ⟨rfl, ?_⟩
  rw [← List.append_assoc]
  exact Text.endsSolid_concat hc

theorem spelled_cut (hanswer : (machine d).answer s c = .cut .neutral) (hc : c ≠ '\n')
    (hrun : ∀ rest, d.Spelled before (label d s run) run (c :: rest))
    (hbefore : Text.isBlank c = true → Text.EndsSolid (before ++ run)) :
    (machine d).UpholdsAt (SpellingInv d) d.Spelled before s run c :=
  Machine.upholdsAt_of_cut hanswer (rewinds_start d c) (fun _ => hrun) (spelled_neutral hc hbefore)

/-! ## One lemma for each sort of state -/

/-- The states of runs that are neither words, punctuation, blanks nor numbers and go on to the end of their
line. -/
theorem spelled_directive (hs : s = .directive ∨ s = .directiveCarried ∨ s = .lineComment) (c : Char) :
    (machine d).UpholdsAt (SpellingInv d) d.Spelled before s run c := by
  have htake : ∃ s', (machine d).answer s c = .take s' ∧ SpellingInv d before s' (run ++ [c]) := by
    show ∃ s', answer d s c = .take s' ∧ _
    rcases hs with rfl | rfl | rfl
    · simp only [answer]
      split_ifs <;> exact ⟨_, rfl, trivial⟩
    · simp only [answer]
      split_ifs <;> exact ⟨_, rfl, trivial⟩
    · exact ⟨_, rfl, trivial⟩
  obtain ⟨s', hanswer, hinv⟩ := htake
  exact Machine.upholdsAt_of_take hanswer hinv

theorem spelled_backquote (c : Char) :
    (machine d).UpholdsAt (SpellingInv d) d.Spelled before .backquote run c := by
  have hanswer : (machine d).answer .backquote c = _ := rfl
  change _ = answer d .backquote c at hanswer
  simp only [answer] at hanswer
  split_ifs at hanswer with hc
  · subst hc
    exact spelled_close hanswer (by decide) (by decide)
  · exact Machine.upholdsAt_of_take hanswer trivial

theorem spelled_block (b : Block) (c : Char) :
    (machine d).UpholdsAt (SpellingInv d) d.Spelled before (.block b) run c := by
  cases hstep : b.step c with
  | some b' =>
    have hanswer : (machine d).answer (.block b) c = .take (.block b') := by
      show answer d (.block b) c = _
      simp only [answer, hstep]
    exact Machine.upholdsAt_of_take hanswer trivial
  | none =>
    have hanswer : (machine d).answer (.block b) c = .close b.kind .neutral := by
      show answer d (.block b) c = _
      simp only [answer, hstep]
    obtain rfl := eq_slash_of_block_step hstep
    exact spelled_close hanswer (by cases b <;> decide) (by decide)

theorem spelled_literal (q : Literal) (c : Char) :
    (machine d).UpholdsAt (SpellingInv d) d.Spelled before (.literal q) run c := by
  cases hadv : q.advance? d.wideEscapes c with
  | some q' => exact Machine.upholdsAt_of_advance (answer_literal d q c) (answer_literal d .bad c) hadv trivial
  | none =>
    obtain ⟨rfl, htakes⟩ := Prod.mk.inj (Literal.advance?_eq_none_iff.1 hadv)
    have hkind : q.closedKind ∉ Dialect.spelledKinds := by
      unfold Literal.closedKind
      split_ifs <;> decide
    refine Machine.upholdsAt_of_closing (answer_literal d q _) (answer_literal d .bad _) htakes
      (fun _ => Dialect.spelled_of_notMem hkind) ⟨rfl, ?_⟩
    rw [← List.append_assoc]
    exact Text.endsSolid_concat (by decide)

theorem spelled_numeral {n : Numeral} (h : SpellingInv d before (.numeral n) run) (hc : c ≠ '\n') :
    (machine d).UpholdsAt (SpellingInv d) d.Spelled before (.numeral n) run c := by
  obtain ⟨hne, hsolid⟩ := h
  cases hstep : n.step d c with
  | some n' =>
    refine Machine.upholdsAt_of_take (answer_numeral_of_step hstep) ⟨by simp, ?_⟩
    exact Text.endsSolid_concat (isBlank_of_numeral_step hstep)
  | none =>
    have hkind : n.kind ∉ Dialect.spelledKinds := by cases n <;> decide
    refine spelled_cut (answer_numeral_of_end hstep) hc (fun _ => Dialect.spelled_of_notMem hkind) ?_
    exact fun _ => hsolid.append hne

theorem spelled_blanks (h : SpellingInv d before .blank run) (hc : c ≠ '\n') :
    (machine d).UpholdsAt (SpellingInv d) d.Spelled before .blank run c := by
  obtain ⟨hne, hblanks, hbefore⟩ := h
  cases hblank : Text.isBlank c with
  | true =>
    have hanswer : (machine d).answer .blank c = .take .blank := by
      show answer d .blank c = _
      simp [answer, hblank]
    refine Machine.upholdsAt_of_take hanswer ⟨by simp, ?_, hbefore⟩
    exact Numeral.forall_mem_concat hblanks ⟨hblank, hc⟩
  | false =>
    have hanswer : (machine d).answer .blank c = .cut .neutral := by
      show answer d .blank c = _
      simp [answer, hblank]
    refine spelled_cut hanswer hc (fun rest => Dialect.spelled_blank (.inr ⟨hne, hblanks, hbefore, ?_⟩)) ?_
    · intro c' hc' hblank'
      rw [← Option.some.inj hc', hblank] at hblank'
      cases hblank'
    · intro hblank'
      rw [hblank] at hblank'
      cases hblank'

theorem spelled_slash (h : SpellingInv d before .slash run) (hc : c ≠ '\n') :
    (machine d).UpholdsAt (SpellingInv d) d.Spelled before .slash run c := by
  obtain rfl : run = ['/'] := h
  have hanswer : (machine d).answer .slash c = _ := rfl
  change _ = answer d .slash c at hanswer
  simp only [answer] at hanswer
  split_ifs at hanswer with hstar hslash
  · exact Machine.upholdsAt_of_take hanswer trivial
  · exact Machine.upholdsAt_of_take hanswer trivial
  · refine spelled_cut hanswer hc (fun rest => Dialect.spelled_slash ?_) ?_
    · intro c' hc'
      obtain rfl := Option.some.inj hc'
      exact ⟨hslash, hstar⟩
    · exact fun _ => Text.endsSolid_concat (by decide)

theorem spelled_punctuation (h : SpellingInv d before .punctuation run) (hc : c ≠ '\n') :
    (machine d).UpholdsAt (SpellingInv d) d.Spelled before .punctuation run c := by
  obtain ⟨hne, hpunctuates⟩ := h
  cases hextends : d.extendsPunctuation c with
  | true =>
    have hanswer : (machine d).answer .punctuation c = .take .punctuation := by
      show answer d .punctuation c = _
      simp [answer, hextends]
    refine Machine.upholdsAt_of_take hanswer ⟨by simp, ?_⟩
    exact Numeral.forall_mem_concat hpunctuates (Dialect.extendsPunctuation_iff.1 hextends)
  | false =>
    have hanswer : (machine d).answer .punctuation c = .cut .neutral := by
      show answer d .punctuation c = _
      simp [answer, hextends]
    have hmaximal : ¬ d.Punctuates c := by
      rw [← Dialect.extendsPunctuation_iff, hextends]
      exact Bool.false_ne_true
    refine spelled_cut hanswer hc (fun rest => Dialect.spelled_punctuationKind ⟨hne, hpunctuates, ?_⟩) ?_
    · intro c' hc'
      rwa [← Option.some.inj hc']
    · intro _
      refine Text.EndsSolid.append hne fun c' hc' hblank => ?_
      rw [Dialect.isBlank_of_mem_chars (.inl (hpunctuates c' (List.mem_of_getLast? hc')).1)] at hblank
      cases hblank

theorem spelled_word (h : SpellingInv d before .word run) (hc : c ≠ '\n') :
    (machine d).UpholdsAt (SpellingInv d) d.Spelled before .word run c := by
  obtain ⟨hne, hunbroken, hfirst⟩ := h
  cases hbreak : d.isBreak c with
  | false =>
    have hanswer : (machine d).answer .word c = .take .word := by
      show answer d .word c = _
      simp [answer, hbreak]
    refine Machine.upholdsAt_of_take hanswer ⟨by simp, Numeral.forall_mem_concat hunbroken hbreak, ?_⟩
    rwa [List.head?_append_of_ne_nil _ hne]
  | true =>
    have hanswer : (machine d).answer .word c = .cut .neutral := by
      show answer d .word c = _
      simp [answer, hbreak]
    refine spelled_cut hanswer hc (fun rest => Dialect.spelled_wordKind ?_) ?_
    · refine Dialect.isWord_wordKind hne hunbroken hfirst ?_
      intro c' hc'
      rwa [← Option.some.inj hc']
    · intro _
      refine Text.EndsSolid.append hne fun c' hc' hblank => ?_
      have hc' := hunbroken c' (List.mem_of_getLast? hc')
      rw [Dialect.isBreak_iff.2 (.inl hblank)] at hc'
      cases hc'

/-! ## The scan -/

theorem spelled_react (h : SpellingInv d before s run) (hc : c ≠ '\n') :
    (machine d).UpholdsAt (SpellingInv d) d.Spelled before s run c := by
  cases s with
  | neutral =>
    obtain ⟨rfl, hbefore⟩ := h
    exact spelled_neutral hc fun _ => hbefore
  | blank => exact spelled_blanks h hc
  | directive => exact spelled_directive (.inl rfl) c
  | directiveCarried => exact spelled_directive (.inr (.inl rfl)) c
  | lineComment => exact spelled_directive (.inr (.inr rfl)) c
  | backquote => exact spelled_backquote c
  | slash => exact spelled_slash h hc
  | block b => exact spelled_block b c
  | literal q => exact spelled_literal q c
  | punctuation => exact spelled_punctuation h hc
  | numeral n => exact spelled_numeral h hc
  | word => exact spelled_word h hc

theorem spelled_last (h : SpellingInv d before s run) (hrun : run ≠ []) (hafter : after.AtLineEnd) :
    d.Spelled before (label d s run) run after := by
  cases s with
  | neutral => exact absurd h.1 hrun
  | blank =>
    obtain ⟨hne, hblanks, hbefore⟩ := h
    exact Dialect.spelled_blank (.inr ⟨hne, hblanks, hbefore, fun c hc _ => hafter c hc⟩)
  | slash =>
    obtain rfl : run = ['/'] := h
    refine Dialect.spelled_slash fun c hc => ?_
    rw [hafter c hc]
    decide
  | punctuation =>
    refine Dialect.spelled_punctuationKind ⟨h.1, h.2, fun c hc hpunctuates => ?_⟩
    -- a line break is blank, and no punctuation is
    have hblank := Dialect.isBlank_of_mem_chars (.inl hpunctuates.1)
    rw [hafter c hc] at hblank
    cases hblank
  | word =>
    obtain ⟨hne, hunbroken, hfirst⟩ := h
    exact Dialect.spelled_wordKind
      (Dialect.isWord_wordKind hne hunbroken hfirst (d.breakNext_of_atLineEnd hafter))
  | directive | directiveCarried | backquote | lineComment =>
    exact Dialect.spelled_of_notMem (by simp [label, Dialect.spelledKinds])
  | block b =>
    refine Dialect.spelled_of_notMem ?_
    cases b <;> simp [label, Block.kind, Dialect.spelledKinds]
  | literal q =>
    refine Dialect.spelled_of_notMem ?_
    cases q <;> simp [label, Literal.openKind, Dialect.spelledKinds]
  | numeral n =>
    refine Dialect.spelled_of_notMem ?_
    cases n <;> simp [label, Numeral.kind, Dialect.spelledKinds]

end Steps

theorem upholds_spelling (d : Dialect) : (machine d).Upholds (SpellingInv d) d.Spelled where
  enter := by
    intro before state hbefore
    cases state with
    | neutral => exact ⟨rfl, hbefore.endsSolid⟩
    | preprocessor | backquote | blockComment | docComment => trivial
  newline := fun _ _ => Dialect.spelled_blank (.inl rfl)
  react := fun hc h => spelled_react h hc
  last := spelled_last

end Braces

/-- Whatever the state and the text, the tokens that are words, punctuation or blanks are spelled as their kind
asks. A word has no break in it, starts with no number sign or digit, ends before a break and is of the kind
that the word table gives it, or else a function or a plain name. An operator is in the table of operators or is
a slash that starts no comment; punctuation that is neither an operator nor a separator by itself is a separator
as a whole, and goes on as far as it can. A line break is a token of its own, and other blanks stand together as
far as they go. -/
theorem tokens_spelled {l : Language} {d : Dialect} (h : l.dialect? = some d) (t : Text) (state : LineState)
    (offset : Nat) : Token.Each d.Spelled (l.tokenize t state offset).tokens := by
  have hscan := (Braces.upholds_spelling d).each_scan state t
  rw [← Language.scan_of_dialect h] at hscan
  exact Token.each_tokensOf Dialect.cuts_spelled hscan offset

/-- A comment that ends, a word of the table in mixed case, a function, and punctuation up to a separator, to a
comment and to the end of a line. -/
theorem tokens_spelled_mixed :
    let lexed := Language.decoHack.tokenize "*/THing \ta_Look+-(|//\n/".toList .blockComment 7
    Language.decoHack.dialect? = some .patch ∧ Token.Each (Dialect.Spelled .patch) lexed.tokens ∧
      lexed.tokens.map (fun k => (k.kind, k.text)) =
        [(.blockComment, "*/".toList), (.reservedWord, "THing".toList), (.whitespace, " \t".toList),
          (.function, "a_Look".toList), (.separator, "+-".toList), (.separator, "(".toList),
          (.operator, "|".toList), (.lineComment, "//".toList), (.whitespace, "\n".toList),
          (.operator, "/".toList)] :=
  ⟨rfl, tokens_spelled rfl _ _ _, by decide +kernel⟩

end DoomLex
