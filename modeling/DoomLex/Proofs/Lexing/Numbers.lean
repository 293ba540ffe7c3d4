/-
Numbers in programs with braces. Whatever stands around it, a token that counts as a number has one of the forms
of numbers or is one of the constants that are words; one that counts as a bad number has none of them, and it
goes on to the next break. The other way round, a text of one of the forms is lexed as one token wherever a
break comes after it, unless that is a point after a whole number, which the number would take.
-/
import DoomLex.Proofs.Lexing.Lines
import DoomLex.Proofs.Lexing.Numerals
import DoomLex.Proofs.Lexing.Surroundings
import DoomLex.Proofs.Text.Words

namespace DoomLex

/-- A blank, a delimiter or the end comes next. -/
def Dialect.BreakNext (d : Dialect) (rest : Text) : Prop := ∀ c ∈ rest.head?, d.isBreak c = true

theorem Dialect.breakNext_of_atLineEnd (d : Dialect) {rest : Text} (h : rest.AtLineEnd) : d.BreakNext rest := by
  intro c hc
  rw [h c hc]
  exact d.isBreak_newline

namespace Numeral

/-! ## Tokens that are numbers -/

/-- The form of the numbers of a kind. -/
def HasForm (d : Dialect) : Kind → Text → Prop
  | .decimal, w => IsDecimal w
  | .hex, w => IsHex w
  | .float, w => IsFloat d w
  | _, _ => False

/-- How a token of a kind of numbers, good or bad, reads and what comes after it. -/
structure Recognized (d : Dialect) (before : Text) (kind : Kind) (text after : Text) : Prop where
  decimal : kind = .decimal → IsDecimal text ∨ Text.sameFolded "null".toList text = true
  hex : kind = .hex → IsHex text
  float : kind = .float → IsFloat d text ∨
    d = .script ∧ (Text.sameFolded "infinity".toList text = true ∨ Text.sameFolded "nan".toList text = true)
  badNumber : kind = .errorNumber →
    (∃ c ∈ text.head?, Text.isDigit c = true) ∧ (∀ form, ¬ HasForm d form text) ∧ d.BreakNext after
  badName : kind = .errorIdentifier →
    (∃ c t, text = '0' :: c :: t ∧ c ≠ 'x' ∧ c ≠ 'X' ∧ c ≠ '.' ∧ Text.isDigit c = false ∧ d.isBreak c = false) ∧
      d.BreakNext after

/-- The kinds of tokens that are numbers, good or bad. -/
def kinds : List Kind := [.decimal, .hex, .float, .errorNumber, .errorIdentifier]

section Recognized

variable {d : Dialect} {n : Numeral} {before run after w : Text} {kind form : Kind} {c : Char}

theorem readKind_of_hasForm (h : HasForm d kind w) : readKind d w = some kind := by
  cases kind <;> try exact absurd h id
  · exact readKind_eq_decimal_iff.2 h
  · exact readKind_eq_hex_iff.2 h
  · exact readKind_eq_float_iff.2 h

theorem mem_of_hasForm (h : HasForm d kind w) : kind ∈ [.decimal, .hex, .float] := by
  cases kind <;> try exact absurd h id
  all_goals simp

theorem recognized_of_notMem (h : kind ∉ kinds) : Recognized d before kind run after := by
  simp only [kinds, List.mem_cons, List.not_mem_nil, or_false, not_or] at h
  obtain ⟨hdecimal, hhex, hfloat, hnumber, hname⟩ := h
  exact ⟨fun hkind => absurd hkind hdecimal, fun hkind => absurd hkind hhex, fun hkind => absurd hkind hfloat,
    fun hkind => absurd hkind hnumber, fun hkind => absurd hkind hname⟩

theorem cuts_recognized : Surrounded.Cuts (Recognized d) := by
  intro before kind x y z after hform _
  refine recognized_of_notMem ?_
  cases kind <;> simp [Kind.linkForm?, kinds] at hform ⊢

/-- A run that is read as a number is recognized if a break ends it. -/
theorem recognized_of_reads (h : reads d run = some n) (hafter : d.BreakNext after) :
    Recognized d before n.kind run after := by
  have hkind : readKind d run = some n.kind := by rw [readKind, h]; rfl
  refine ⟨?_, ?_, ?_, ?_, ?_⟩ <;> intro hn
  · rw [hn] at hkind
    exact .inl (readKind_eq_decimal_iff.1 hkind)
  · rw [hn] at hkind
    exact readKind_eq_hex_iff.1 hkind
  · rw [hn] at hkind
    exact .inl (readKind_eq_float_iff.1 hkind)
  · refine ⟨?_, ?_, hafter⟩
    · obtain ⟨c, t, rfl, hc⟩ := exists_digit_of_reads h
      exact ⟨c, rfl, hc⟩
    · -- the text is read as one kind only, so as none that has a form
      intro form hform
      rw [readKind_of_hasForm hform, hn] at hkind
      obtain rfl := Option.some.inj hkind
      exact hform
  · refine ⟨?_, hafter⟩
    have hshape := shape_of_reads h
    cases n <;> simp only [Numeral.kind, reduceCtorEq] at hn
    exact hshape

theorem recognized_word (d : Dialect) : Recognized d before (d.wordKind run) run after := by
  unfold Dialect.wordKind
  cases hget : d.words.get? run with
  | none =>
    show Recognized d before (if _ then _ else _) run after
    split_ifs <;> exact recognized_of_notMem (by decide)
  | some kind =>
    -- the constants of the dialects are the only words of kinds of numbers
    show Recognized d before kind run after
    cases d with
    | patch =>
      rcases mem_of_get?_wordsOf hget with ⟨rfl, -⟩ | ⟨e, he, rfl, hsame⟩
      · exact recognized_of_notMem (by decide)
      · simp only [List.mem_cons, List.not_mem_nil, or_false] at he
        rcases he with rfl | rfl | rfl
        · exact ⟨fun _ => .inr hsame, nofun, nofun, nofun, nofun⟩
        all_goals exact recognized_of_notMem (by decide)
    | script =>
      rcases mem_of_get?_wordsOf hget with ⟨rfl, -⟩ | ⟨e, he, rfl, hsame⟩
      · exact recognized_of_notMem (by decide)
      · simp only [List.mem_cons, List.not_mem_nil, or_false] at he
        rcases he with rfl | rfl | rfl | rfl | rfl
        · exact ⟨fun _ => .inr hsame, nofun, nofun, nofun, nofun⟩
        · exact recognized_of_notMem (by decide)
        · exact recognized_of_notMem (by decide)
        · exact ⟨nofun, nofun, fun _ => .inr ⟨rfl, .inl hsame⟩, nofun, nofun⟩
        · exact ⟨nofun, nofun, fun _ => .inr ⟨rfl, .inr hsame⟩, nofun, nofun⟩

theorem isBreak_of_step_eq_none (h : n.step d c = none) : d.isBreak c = true := by
  cases n <;> simp only [step, onDigits] at h <;> split_ifs at h <;> assumption

end Recognized

end Numeral

namespace Braces

open Numeral (Recognized)

/-! ## The invariant of the scan -/

/-- The pending run of a number is read up to the state; between tokens there is none. -/
def NumberInv (d : Dialect) (_ : Text) : Scan → Text → Prop
  | .neutral, run => run = []
  | .numeral n, run => Numeral.reads d run = some n
  | _, _ => True

/-- The states of runs that are neither numbers nor literals. -/
def Plain : Scan → Prop
  | .neutral | .numeral _ | .literal _ => False
  | _ => True

section Steps

variable {d : Dialect} {before run after : Text} {s : Scan} {c : Char}

theorem numberInv_of_plain (h : Plain s) : NumberInv d before s run := by
  cases s <;> trivial

theorem answer_of_plain (h : Plain s) (c : Char) :
    (∃ s', answer d s c = .take s' ∧ Plain s') ∨
      (∃ kind, answer d s c = .close kind .neutral ∧ kind ∉ Numeral.kinds) ∨ answer d s c = .cut .neutral := by
  cases s with
  | neutral | numeral n | literal q => exact absurd h id
  | block b =>
    simp only [answer]
    cases hb : b.step c with
    | some b' => exact .inl ⟨_, rfl, trivial⟩
    | none => exact .inr (.inl ⟨_, rfl, by cases b <;> decide⟩)
  | backquote =>
    simp only [answer]
    split_ifs
    · exact .inr (.inl ⟨_, rfl, by decide⟩)
    · exact .inl ⟨_, rfl, trivial⟩
  | lineComment => exact .inl ⟨_, rfl, trivial⟩
  | directive | directiveCarried | slash | blank | punctuation | word =>
    simp only [answer]
    split_ifs <;> first | exact .inl ⟨_, rfl, trivial⟩ | exact .inr (.inr rfl)

theorem recognized_of_plain (h : Plain s) : Recognized d before (label d s run) run after := by
  cases s with
  | neutral | numeral n | literal q => exact absurd h id
  | word => exact Numeral.recognized_word d
  | block b =>
    refine Numeral.recognized_of_notMem ?_
    show b.kind ∉ _
    cases b <;> decide
  | punctuation =>
    refine Numeral.recognized_of_notMem ?_
    show Dialect.punctuationKind d run ∉ _
    unfold Dialect.punctuationKind
    split_ifs <;> decide
  | blank | directive | directiveCarried | backquote | slash | lineComment =>
    exact Numeral.recognized_of_notMem (by simp [label, Numeral.kinds])

theorem upholdsAt_neutral (c : Char) : (machine d).UpholdsAt (NumberInv d) (Recognized d) before .neutral [] c := by
  have htake : ∀ {s'}, (machine d).answer .neutral c = .take s' → Plain s' →
      (machine d).UpholdsAt (NumberInv d) (Recognized d) before .neutral [] c :=
    fun hanswer hs' => Machine.upholdsAt_of_take hanswer (numberInv_of_plain hs')
  -- the two cases before the last are those of digits, the only characters that numbers start with
  have hanswer : (machine d).answer .neutral c = start d c := rfl
  unfold start at hanswer
  split at hanswer
  · exact htake hanswer trivial
  split at hanswer
  · exact htake hanswer trivial
  split at hanswer
  · exact Machine.upholdsAt_of_take hanswer trivial
  split at hanswer
  · exact htake hanswer trivial
  split at hanswer
  · exact htake hanswer trivial
  split at hanswer
  · exact Machine.upholdsAt_of_close hanswer (fun _ => Numeral.recognized_of_notMem (by decide)) rfl
  split at hanswer
  · exact htake hanswer trivial
  split at hanswer
  · rename_i hzero
    subst hzero
    exact Machine.upholdsAt_of_take hanswer rfl
  split at hanswer
  · rename_i hzero hdigit
    refine Machine.upholdsAt_of_take hanswer ?_
    show Numeral.reads d [c] = some .decimal
    simp [Numeral.reads, hzero, hdigit]
  · exact htake hanswer trivial

theorem upholdsAt_plain (h : Plain s) (c : Char) :
    (machine d).UpholdsAt (NumberInv d) (Recognized d) before s run c := by
  rcases answer_of_plain h c with ⟨s', htake, hs'⟩ | ⟨kind, hclose, hkind⟩ | hcut
  · exact Machine.upholdsAt_of_take htake (numberInv_of_plain hs')
  · exact Machine.upholdsAt_of_close hclose (fun _ => Numeral.recognized_of_notMem hkind) rfl
  · refine Machine.upholdsAt_of_cut hcut (rewinds_start d c) ?_ (upholdsAt_neutral c)
    intro _ rest
    exact recognized_of_plain h

theorem upholdsAt_literal (q : Literal) (c : Char) :
    (machine d).UpholdsAt (NumberInv d) (Recognized d) before (.literal q) run c := by
  cases hadv : q.advance? d.wideEscapes c with
  | some q' => exact Machine.upholdsAt_of_advance (answer_literal d q c) (answer_literal d .bad c) hadv trivial
  | none =>
    obtain ⟨rfl, htakes⟩ := Prod.mk.inj (Literal.advance?_eq_none_iff.1 hadv)
    have hkind : q.closedKind ∉ Numeral.kinds := by
      unfold Literal.closedKind
      split_ifs <;> decide
    exact Machine.upholdsAt_of_closing (answer_literal d q _) (answer_literal d .bad _) htakes
      (fun _ => Numeral.recognized_of_notMem hkind) rfl

theorem answer_numeral_of_step {n n' : Numeral} (h : n.step d c = some n') :
    (machine d).answer (.numeral n) c = .take (.numeral n') := by
  show answer d (.numeral n) c = _
  simp only [answer, h]

theorem answer_numeral_of_end {n : Numeral} (h : n.step d c = none) :
    (machine d).answer (.numeral n) c = .cut .neutral := by
  show answer d (.numeral n) c = _
  simp only [answer, h]

theorem upholdsAt_numeral {n : Numeral} (h : Numeral.reads d run = some n) (c : Char) :
    (machine d).UpholdsAt (NumberInv d) (Recognized d) before (.numeral n) run c := by
  cases hstep : n.step d c with
  | some n' => exact Machine.upholdsAt_of_take (answer_numeral_of_step hstep) (Numeral.reads_concat h hstep)
  | none =>
    refine Machine.upholdsAt_of_cut (answer_numeral_of_end hstep) (rewinds_start d c) ?_ (upholdsAt_neutral c)
    intro _ rest
    refine Numeral.recognized_of_reads h ?_
    intro x hx
    rw [← Option.some.inj hx]
    exact Numeral.isBreak_of_step_eq_none hstep

theorem upholdsAt (h : NumberInv d before s run) :
    (machine d).UpholdsAt (NumberInv d) (Recognized d) before s run c := by
  cases s with
  | neutral =>
    obtain rfl : run = [] := h
    exact upholdsAt_neutral c
  | literal q => exact upholdsAt_literal q c
  | numeral n => exact upholdsAt_numeral h c
  | blank | directive | directiveCarried | backquote | slash | lineComment | block b | punctuation | word =>
    exact upholdsAt_plain (by trivial) c

theorem recognized_last (h : NumberInv d before s run) (hne : run ≠ []) (hafter : after.AtLineEnd) :
    Recognized d before (label d s run) run after := by
  cases s with
  | neutral => exact absurd h hne
  | literal q =>
    refine Numeral.recognized_of_notMem ?_
    show q.openKind ∉ _
    cases q <;> simp [Literal.openKind, Numeral.kinds]
  | numeral n => exact Numeral.recognized_of_reads h (d.breakNext_of_atLineEnd hafter)
  | blank | directive | directiveCarried | backquote | slash | lineComment | block b | punctuation | word =>
    exact recognized_of_plain (by trivial)

end Steps

theorem upholds_numbers (d : Dialect) : (machine d).Upholds (NumberInv d) (Recognized d) where
  enter := by
    intro before state _
    cases state <;> trivial
  newline := fun _ _ => Numeral.recognized_of_notMem (by decide)
  react := fun _ h => upholdsAt h
  last := recognized_last

/-! ## Texts that are numbers -/

section Numbers

variable {d : Dialect} {n n' : Numeral} {w rest : Text} {c : Char}

theorem takes_of_foldlM (h : w.foldlM (Numeral.step d) n = some n') :
    (machine d).Takes (.numeral n) w (.numeral n') := by
  induction w generalizing n with
  | nil =>
    obtain rfl : n = n' := Option.some.inj h
    exact .nil
  | cons c w ih =>
    rw [List.foldlM_cons] at h
    cases hstep : n.step d c with
    | none =>
      rw [hstep] at h
      cases h
    | some m =>
      rw [hstep] at h
      have hc : c ≠ '\n' := by
        rintro rfl
        rw [n.step_newline] at hstep
        cases hstep
      exact .cons hc (answer_numeral_of_step hstep) (ih h)

theorem start_of_isDigit (hc : Text.isDigit c = true) :
    start d c = .take (.numeral (if c = '0' then .zero else .decimal)) := by
  have halnum := Text.isAlphanumeric_of_isDigit hc
  have hblank := Text.isBlank_of_isAlphanumeric halnum
  obtain ⟨hseparator, hdelimiter⟩ := d.contains_of_isAlphanumeric halnum
  have hmarks : c ≠ '#' ∧ c ≠ '"' ∧ c ≠ '`' ∧ c ≠ '/' := by
    refine ⟨?_, ?_, ?_, ?_⟩ <;> (rintro rfl; exact absurd hc (by decide))
  simp only [start, hmarks, hblank, hseparator, hdelimiter, hc, Bool.false_eq_true, if_false, if_true]
  split_ifs <;> rfl

theorem takes_of_reads (h : Numeral.reads d w = some n) : (machine d).Takes .neutral w (.numeral n) := by
  obtain ⟨c, t, rfl, hc⟩ := Numeral.exists_digit_of_reads h
  have hnewline : c ≠ '\n' := by
    rintro rfl
    exact absurd hc (by decide)
  have hanswer : (machine d).answer .neutral c = .take (.numeral (if c = '0' then .zero else .decimal)) :=
    start_of_isDigit hc
  refine .cons hnewline hanswer (takes_of_foldlM ?_)
  simp only [Numeral.reads] at h
  split_ifs at h ⊢ with hzero <;> exact h

/-- A break ends a number, unless it is a point after a whole number. -/
theorem step_of_isBreak (hn : n.kind ∈ [.decimal, .hex, .float]) (hc : d.isBreak c = true)
    (hpoint : n.kind = .decimal → c ≠ '.') : n.step d c = none := by
  -- no character that numbers are made of is a break, the point apart
  have halnum : Text.isAlphanumeric c = false := by
    by_contra h
    rw [d.isBreak_of_isAlphanumeric (by simpa using h)] at hc
    cases hc
  have hdigit : Text.isDigit c = false := by
    by_contra h
    rw [Text.isAlphanumeric_of_isDigit (by simpa using h)] at halnum
    cases halnum
  have hhex : Text.isHexDigit c = false := by
    by_contra h
    rw [Text.isAlphanumeric_of_isHexDigit (by simpa using h)] at halnum
    cases halnum
  have hletters : c ≠ 'x' ∧ c ≠ 'X' ∧ c ≠ 'e' ∧ c ≠ 'E' := by
    refine ⟨?_, ?_, ?_, ?_⟩ <;> (rintro rfl; exact absurd halnum (by decide))
  obtain ⟨hx, hX, he, hE⟩ := hletters
  cases n with
  | zero => simp [Numeral.step, hx, hX, hpoint rfl, hc]
  | decimal => simp [Numeral.step, Numeral.startsExponent, Numeral.onDigits, he, hE, hpoint rfl, hdigit, hc]
  | hex => simp [Numeral.step, Numeral.onDigits, hhex, hc]
  | fraction => simp [Numeral.step, Numeral.startsExponent, Numeral.onDigits, he, hE, hdigit, hc]
  | exponent => simp [Numeral.step, Numeral.onDigits, hdigit, hc]
  | hexMark | exponentMark | exponentSign | malformed | misspelt => simp [Numeral.kind] at hn

theorem scan_number {kind : Kind} (hform : Numeral.HasForm d kind w) (hrest : d.BreakNext rest)
    (hpoint : kind = .decimal → rest.head? ≠ some '.') :
    (machine d).scan .neutral (w ++ rest) =
      (⟨kind, w⟩ :: ((machine d).scan .neutral rest).1, ((machine d).scan .neutral rest).2) := by
  obtain ⟨n, hreads, rfl⟩ := Option.map_eq_some_iff.1 (Numeral.readKind_of_hasForm hform)
  have hne : w ≠ [] := by
    rintro rfl
    cases hreads
  have hcut : ∀ c ∈ rest.head?, (machine d).answer (.numeral n) c = .cut .neutral := by
    intro c hc
    have hstep : n.step d c = none := by
      refine step_of_isBreak (Numeral.mem_of_hasForm hform) (hrest c hc) ?_
      rintro hkind rfl
      exact hpoint hkind hc
    exact answer_numeral_of_end hstep
  exact Machine.scanFrom_of_takes_cut (takes_of_reads hreads) hne hcut (fun c _ => rewinds_start d c) rfl rfl

end Numbers

end Braces

/-- Numbers are recognized for what they are. Whatever the state and the text, a token that counts as a number
has the form of one or is a constant, and one that counts as a bad number has none and ends at a break. And each
text that has the form of a number, before a break that it cannot take as its point, is lexed as one token, and
what comes after it as a text of its own. -/
theorem numbers_recognized {l : Language} {d : Dialect} (h : l.dialect? = some d) :
    (∀ t state offset, Token.Each (Numeral.Recognized d) (l.tokenize t state offset).tokens) ∧
    ∀ kind w rest, Numeral.HasForm d kind w → d.BreakNext rest →
      (kind = .decimal → rest.head? ≠ some '.') → ∀ offset,
        let width := Text.width w
        let later := l.tokenize rest .neutral (offset + width)
        l.tokenize (w ++ rest) .neutral offset =
          ⟨⟨kind, w, 0, offset, false⟩ :: later.tokens.map (·.behind width), later.next⟩ := by
  constructor
  · intro t state offset
    have hscan := (Braces.upholds_numbers d).each_scan state t
    rw [← Language.scan_of_dialect h] at hscan
    exact Token.each_tokensOf Numeral.cuts_recognized hscan offset
  · intro kind w rest hform hrest hpoint offset
    have hscan := Braces.scan_number hform hrest hpoint
    rw [← Language.scan_of_dialect h, ← Language.scan_of_dialect h] at hscan
    have hlink : kind.linkForm? = none := by
      have hmem := Numeral.mem_of_hasForm hform
      simp only [List.mem_cons, List.not_mem_nil, or_false] at hmem
      rcases hmem with rfl | rfl | rfl <;> rfl
    have htokens := l.tokenize_of_scan [⟨kind, w⟩] hscan offset
    rw [tokensOf_singleton_of_not_linked hlink, Run.textOf_cons, Run.textOf_nil, List.append_nil] at htokens
    exact htokens

/-- A number with an exponent and a sign, which ends before a semicolon. -/
theorem numbers_recognized_exponent :
    let w := "2e+3".toList
    Language.rookScript.dialect? = some .script ∧ Numeral.HasForm .script .float w ∧
      Dialect.BreakNext .script [';'] ∧
      Token.Each (Numeral.Recognized .script) (Language.rookScript.tokenize (w ++ [';']) .neutral 0).tokens ∧
      Language.rookScript.tokenize (w ++ [';']) .neutral 0 =
        ⟨[⟨.float, w, 0, 0, false⟩, ⟨.operator, [';'], 4, 4, false⟩], .neutral⟩ := by
  intro w
  obtain ⟨hsound, hcomplete⟩ := numbers_recognized (l := .rookScript) rfl
  have hexponential : Numeral.IsExponential w :=
    ⟨['2'], 'e', ['+'], ['3'], rfl, .inr ⟨Numeral.isDecimal_singleton rfl, by decide⟩, .inl rfl,
      .inr (.inl rfl), Numeral.isDecimal_singleton rfl⟩
  have hform : Numeral.HasForm .script .float w := .inr ⟨rfl, hexponential⟩
  have hrest : Dialect.BreakNext .script [';'] := by
    intro c hc
    obtain rfl := Option.some.inj hc
    decide +kernel
  refine ⟨rfl, hform, hrest, hsound _ _ _, ?_⟩
  exact (hcomplete .float w [';'] hform hrest nofun 0).trans (by decide +kernel)

end DoomLex
