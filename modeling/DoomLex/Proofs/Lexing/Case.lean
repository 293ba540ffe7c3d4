/-
The case of ASCII letters is ignored: texts that differ in nothing else are lexed into tokens of the same
kind at every byte, and leave the same state. A machine that gives a capital letter the answer of its small
letter, and the same kind to runs that differ in case only, makes the runs of a folded text by folding the
runs of the text; all machines but that of texture lists do so. Pieces of links may differ, for schemes are
told by their case, but pieces keep the kind of their run.
-/
import DoomLex.Proofs.Lexing.Layout
import DoomLex.Proofs.Text.Alphabets
import DoomLex.Proofs.Text.Folding

namespace DoomLex

/-! ## Machines that ignore case -/

/-- The run with its capital letters made small. -/
def Run.folded (r : Run) : Run := ⟨r.kind, Text.foldCase r.text⟩

namespace Machine

/-- A machine that does not tell capital letters from small ones. -/
structure IgnoresCase {σ : Type} (m : Machine σ) : Prop where
  answer : ∀ s c, m.answer s c.toLower = m.answer s c
  label : ∀ s t, m.label s (Text.foldCase t) = m.label s t
  lastLabel : ∀ s t, m.lastLabel s (Text.foldCase t) = m.lastLabel s t

/-- What a character leads to, with all capital letters made small. -/
def Reaction.folded {σ : Type} (r : Reaction σ) : Reaction σ :=
  ⟨r.done.map Run.folded, r.next, Text.foldCase r.pending⟩

theorem ofPending_foldCase {kind : Text → Kind} (h : ∀ t, kind (Text.foldCase t) = kind t) (pending : Text) :
    Run.ofPending kind (Text.foldCase pending) = (Run.ofPending kind pending).map Run.folded := by
  cases pending with
  | nil => rfl
  | cons c pending =>
    have hkind := h (c :: pending).reverse
    rw [Text.foldCase_reverse] at hkind
    show [Run.mk (kind (Text.foldCase (c :: pending)).reverse) (Text.foldCase (c :: pending)).reverse] = _
    rw [hkind, ← Text.foldCase_reverse]
    rfl

variable {σ : Type} {m : Machine σ}

theorem absorb_foldCase (hm : m.IgnoresCase) (s : σ) (pending : Text) (c : Char) :
    m.absorb s (Text.foldCase pending) c.toLower = (m.absorb s pending c).folded := by
  unfold absorb
  rw [hm.answer]
  cases m.answer s c with
  | close kind s' => simp [Reaction.folded, Run.folded, Text.foldCase_reverse]
  | split s' => rw [ofPending_foldCase (hm.label s)]; rfl
  | take s' | cut s' | again s' => rfl

theorem react_foldCase (hm : m.IgnoresCase) (s : σ) (pending : Text) (c : Char) :
    m.react s (Text.foldCase pending) c.toLower = (m.react s pending c).folded := by
  unfold react
  rw [hm.answer]
  cases m.answer s c with
  | cut s' =>
    have h := absorb_foldCase hm s' [] c
    rw [Text.foldCase_nil] at h
    simp only [h, ofPending_foldCase (hm.label s)]
    simp [Reaction.folded]
  | again s' => exact absorb_foldCase hm s' pending c
  | take s' | close kind s' | split s' => exact absorb_foldCase hm s pending c

/-- Folding a text folds its runs. -/
theorem scanFrom_foldCase (hm : m.IgnoresCase) (s : σ) (pending t : Text) :
    m.scanFrom s (Text.foldCase pending) (Text.foldCase t) =
      ((m.scanFrom s pending t).1.map Run.folded, (m.scanFrom s pending t).2) := by
  induction t generalizing s pending with
  | nil => rw [Text.foldCase_nil, scanFrom_nil, scanFrom_nil, ofPending_foldCase (hm.lastLabel s)]
  | cons c t ih =>
    rw [Text.foldCase_cons]
    have hnewline : c.toLower = '\n' ↔ c = '\n' := Text.toLower_eq_iff (by decide)
    by_cases hc : c = '\n'
    · have h := ih (m.enter (m.leave s)) []
      rw [Text.foldCase_nil] at h
      rw [hnewline.2 hc, hc, scanFrom_newline, scanFrom_newline, ofPending_foldCase (hm.lastLabel s), scan,
        scan, h]
      simp [Run.newline, Run.folded]
    · rw [scanFrom_cons m (fun h => hc (hnewline.1 h)), scanFrom_cons m hc, react_foldCase hm]
      simp [Reaction.folded, ih]

end Machine

/-! ## Words and punctuation -/

theorem Alphabet.contains_toLower {s : String} (h : s.toList.all (!·.isAlpha) = true) (c : Char) :
    (Alphabet.ofString s).contains c.toLower = (Alphabet.ofString s).contains c := by
  have hplain : ∀ d ∈ s.toList, d.isAlpha = false := by simpa using h
  rw [Bool.eq_iff_iff, contains_ofString, contains_ofString]
  constructor
  · intro hc
    have heq : c = c.toLower := (Text.toLower_eq_iff (hplain _ hc)).1 rfl
    rwa [← heq] at hc
  · intro hc
    have heq : c.toLower = c := (Text.toLower_eq_iff (hplain _ hc)).2 rfl
    rwa [heq]

namespace Dialect

variable (d : Dialect)

theorem contains_delimiters_toLower (c : Char) :
    d.delimiters.contains c.toLower = d.delimiters.contains c := by
  cases d <;> exact Alphabet.contains_toLower (by decide) c

theorem contains_separators_toLower (c : Char) :
    d.separators.contains c.toLower = d.separators.contains c := by
  cases d <;> exact Alphabet.contains_toLower (by decide) c

theorem isBreak_toLower (c : Char) : d.isBreak c.toLower = d.isBreak c := by
  rw [isBreak, isBreak, Text.isBlank_toLower, contains_delimiters_toLower]

theorem extendsPunctuation_toLower (c : Char) : d.extendsPunctuation c.toLower = d.extendsPunctuation c := by
  have hmarks : (c.toLower == '"' || c.toLower == '`' || c.toLower == '/') =
      (c == '"' || c == '`' || c == '/') :=
    Text.toLower_invariant (f := fun c => c == '"' || c == '`' || c == '/') (by decide) c
  rw [extendsPunctuation, extendsPunctuation, contains_delimiters_toLower, contains_separators_toLower, hmarks]

/-- The words of all tables are looked up in folded form. -/
theorem rule_words : d.words.rule = .insensitive := by
  cases d <;> exact WordTable.rule_ofList _ _

theorem wordKind_foldCase (word : Text) : d.wordKind (Text.foldCase word) = d.wordKind word := by
  have htake : Text.foldCase ((Text.foldCase word).take 2) = Text.foldCase (word.take 2) := by
    simp only [Text.foldCase, ← List.map_take]
    exact Text.foldCase_foldCase (word.take 2)
  rw [wordKind, wordKind, WordTable.get?_foldCase d.rule_words, htake]

/-- No operator has a letter, so folding makes no run of punctuation an operator. -/
theorem punctuationKind_foldCase (run : Text) :
    d.punctuationKind (Text.foldCase run) = d.punctuationKind run := by
  have hall : d.operators.all (·.all (!·.isAlpha)) = true := by
    cases d <;> decide
  have hplain : ∀ u ∈ d.operators, ∀ c ∈ u, c.isAlpha = false := by simpa using hall
  -- a run that is an operator after folding was the same before
  have hmem : d.operators.contains (Text.foldCase run) = d.operators.contains run := by
    rw [Bool.eq_iff_iff, List.contains_iff_mem, List.contains_iff_mem]
    constructor
    · intro h
      rwa [← (Text.foldCase_eq_iff (hplain _ h)).1 rfl] at h
    · intro h
      rwa [(Text.foldCase_eq_iff (hplain _ h)).2 rfl]
  rw [punctuationKind, punctuationKind, hmem]

end Dialect

/-! ## Parts of the machines -/

theorem Literal.step_toLower (wide : Bool) (q : Literal) (c : Char) :
    q.step wide c.toLower = q.step wide c := by
  have hquote : c.toLower = '"' ↔ c = '"' := Text.toLower_eq_iff (by decide)
  have hbackslash : c.toLower = '\\' ↔ c = '\\' := Text.toLower_eq_iff (by decide)
  have hletter : digitsAfter wide c.toLower = digitsAfter wide c := by
    cases wide <;> exact Text.toLower_invariant (by decide) c
  cases q with
  | body | bad => simp only [step, hquote, hbackslash]
  | escape => simp only [step, hletter]
  | digits missing => simp only [step, Text.isHexDigit_toLower]
  | badEscape => rfl

theorem Numeral.step_toLower (d : Dialect) (n : Numeral) (c : Char) : n.step d c.toLower = n.step d c := by
  have hpoint : c.toLower = '.' ↔ c = '.' := Text.toLower_eq_iff (by decide)
  have hplus : c.toLower = '+' ↔ c = '+' := Text.toLower_eq_iff (by decide)
  have hminus : c.toLower = '-' ↔ c = '-' := Text.toLower_eq_iff (by decide)
  -- the letters of numbers are looked for in both cases
  have hhex : (c.toLower = 'x' ∨ c.toLower = 'X') ↔ (c = 'x' ∨ c = 'X') :=
    decide_eq_decide.1 (Text.toLower_invariant (f := fun c => decide (c = 'x' ∨ c = 'X')) (by decide) c)
  have hexp : startsExponent d c.toLower = startsExponent d c := by
    cases d <;> exact Text.toLower_invariant (by decide) c
  cases n with
  | zero => simp only [step, hhex, hpoint, d.isBreak_toLower, Text.isDigit_toLower]
  | decimal => simp only [step, hexp, hpoint, onDigits, d.isBreak_toLower, Text.isDigit_toLower]
  | hexMark | hex => simp only [step, onDigits, d.isBreak_toLower, Text.isHexDigit_toLower]
  | fraction => simp only [step, hexp, onDigits, d.isBreak_toLower, Text.isDigit_toLower]
  | exponentMark => simp only [step, hplus, hminus, onDigits, d.isBreak_toLower, Text.isDigit_toLower]
  | exponentSign | exponent => simp only [step, onDigits, d.isBreak_toLower, Text.isDigit_toLower]
  | malformed | misspelt => simp only [step, d.isBreak_toLower]

theorem Braces.Block.step_toLower (b : Block) (c : Char) : b.step c.toLower = b.step c := by
  have hstar : c.toLower = '*' ↔ c = '*' := Text.toLower_eq_iff (by decide)
  have hslash : c.toLower = '/' ↔ c = '/' := Text.toLower_eq_iff (by decide)
  cases b <;> simp only [step, hstar, hslash]

theorem MergeScript.Argument.step_toLower (a : Argument) (c : Char) : a.step c.toLower = a.step c := by
  have hunderscore : (c.toLower == '_') = (c == '_') :=
    Text.toLower_invariant (f := fun c => c == '_') (by decide) c
  cases a <;>
    simp only [step, Text.isDigit_toLower, Text.isAlphabetic_toLower, Text.isAlphanumeric_toLower, hunderscore]

/-! ## The machines -/

namespace Braces

theorem start_toLower (d : Dialect) (c : Char) : start d c.toLower = start d c := by
  have hsame : ∀ e : Char, e.isAlpha = false → (c.toLower = e ↔ c = e) := fun _ => Text.toLower_eq_iff
  simp only [start, Text.isBlank_toLower, d.contains_separators_toLower, d.contains_delimiters_toLower,
    Text.isDigit_toLower, hsame '#' (by decide), hsame '"' (by decide), hsame '`' (by decide),
    hsame '/' (by decide), hsame '0' (by decide)]

theorem answer_toLower (d : Dialect) (s : Scan) (c : Char) : answer d s c.toLower = answer d s c := by
  have hsame : ∀ e : Char, e.isAlpha = false → (c.toLower = e ↔ c = e) := fun _ => Text.toLower_eq_iff
  cases s with
  | neutral => exact start_toLower d c
  | blank | directiveCarried => simp only [answer, Text.isBlank_toLower]
  | directive => simp only [answer, hsame '\\' (by decide)]
  | backquote => simp only [answer, hsame '`' (by decide)]
  | slash => simp only [answer, hsame '*' (by decide), hsame '/' (by decide)]
  | lineComment => rfl
  | block b => simp only [answer, b.step_toLower]
  | literal q => simp only [answer, q.step_toLower]
  | punctuation => simp only [answer, d.extendsPunctuation_toLower]
  | numeral n => simp only [answer, n.step_toLower]
  | word => simp only [answer, d.isBreak_toLower]

theorem label_foldCase (d : Dialect) (s : Scan) (run : Text) :
    label d s (Text.foldCase run) = label d s run := by
  cases s with
  | punctuation => exact d.punctuationKind_foldCase run
  | word => exact d.wordKind_foldCase run
  | neutral | blank | directive | directiveCarried | backquote | slash | lineComment | block b | literal q
    | numeral n => rfl

theorem ignoresCase (d : Dialect) : (machine d).IgnoresCase :=
  ⟨answer_toLower d, label_foldCase d, label_foldCase d⟩

end Braces

namespace MergeScript

theorem answer_toLower (s : Scan) (c : Char) : answer s c.toLower = answer s c := by
  have hsame : ∀ e : Char, e.isAlpha = false → (c.toLower = e ↔ c = e) := fun _ => Text.toLower_eq_iff
  cases s with
  | neutral =>
    simp only [answer, Text.isBlank_toLower, Text.isDigit_toLower, hsame '#' (by decide),
      hsame '"' (by decide), hsame '$' (by decide)]
  | blank => simp only [answer, Text.isBlank_toLower]
  | comment => rfl
  | word => simp only [answer, Text.isBlank_toLower, hsame '$' (by decide)]
  | decimal => simp only [answer, Text.isBlank_toLower, Text.isDigit_toLower, hsame '$' (by decide)]
  | literal q => simp only [answer, q.step_toLower, hsame '$' (by decide)]
  | argument host a =>
    have hresume : resume host c.toLower = resume host c := by
      cases host <;> simp only [resume, Text.isBlank_toLower]
    simp only [answer, a.step_toLower, hresume]

theorem label_foldCase (s : Scan) (run : Text) : label s (Text.foldCase run) = label s run := by
  cases s with
  | word =>
    have hword : words.get? (Text.foldCase run) = words.get? run :=
      WordTable.get?_foldCase (WordTable.rule_ofList _ _) run
    simp only [label, hword]
  | neutral | blank | comment | decimal | literal q | argument host a => rfl

theorem lastLabel_foldCase (s : Scan) (run : Text) : lastLabel s (Text.foldCase run) = lastLabel s run := by
  cases s with
  | argument host a => cases host <;> rfl
  | word => exact label_foldCase .word run
  | neutral | blank | comment | decimal | literal q => rfl

theorem ignoresCase : machine.IgnoresCase := ⟨answer_toLower, label_foldCase, lastLabel_foldCase⟩

end MergeScript

namespace SwitchList

theorem answer_toLower (s : Scan) (c : Char) : answer s c.toLower = answer s c := by
  have hsame : c.toLower = '#' ↔ c = '#' := Text.toLower_eq_iff (by decide)
  cases s <;> simp only [answer, Text.isBlank_toLower, Text.isDigit_toLower, hsame]

theorem label_foldCase (s : Scan) (run : Text) : label s (Text.foldCase run) = label s run := by
  cases s with
  | word =>
    have hword : words.get? (Text.foldCase run) = words.get? run :=
      WordTable.get?_foldCase (WordTable.rule_ofList _ _) run
    simp only [label, hword]
  | neutral | blank | comment | decimal => rfl

theorem ignoresCase : machine.IgnoresCase := ⟨answer_toLower, label_foldCase, label_foldCase⟩

end SwitchList

theorem Language.machine_ignoresCase {l : Language} (hl : l ≠ .deuTex) : l.machine.IgnoresCase := by
  cases l with
  | decoHack => exact Braces.ignoresCase .patch
  | rookScript | wadScript | doomMake => exact Braces.ignoresCase .script
  | wadMerge => exact MergeScript.ignoresCase
  | deuTex => exact absurd rfl hl
  | defSwAni => exact SwitchList.ignoresCase

/-! ## Kinds of bytes -/

/-- The kind of the token over a byte of the text. -/
def Lexed.kindAt? (x : Lexed) (n : Nat) : Option Kind :=
  (x.tokens.find? fun k => k.start ≤ n && n < k.stop).map (·.kind)

/-- The kinds of the bytes that stretches cover. -/
def byteKinds (ps : List (Kind × Piece)) : List Kind :=
  ps.flatMap fun p => List.replicate (Text.width p.2.text) p.1

/-- The pieces of a run are as many bytes of its kind as the run. -/
theorem byteKinds_stretches (runs : List Run) :
    byteKinds (stretches runs) = runs.flatMap fun r => List.replicate (Text.width r.text) r.kind := by
  have hpieces : ∀ (kind : Kind) (ps : List Piece),
      byteKinds (ps.map fun p => (kind, p)) = List.replicate (Text.width (ps.flatMap (·.text))) kind := by
    intro kind ps
    induction ps with
    | nil => rfl
    | cons p ps ih =>
      rw [List.flatMap_cons, Text.width_append, List.replicate_add, ← ih]
      rfl
  induction runs with
  | nil => rfl
  | cons r runs ih =>
    rw [List.flatMap_cons, ← ih]
    conv_rhs => rw [← r.flatMap_text_pieces, ← hpieces]
    simp [stretches, byteKinds]

theorem find?_layOut (offset start n : Nat) (ps : List (Kind × Piece)) :
    ((layOut offset start ps).find? fun k => k.start ≤ start + n && start + n < k.stop).map (·.kind) =
      (byteKinds ps)[n]? := by
  induction ps generalizing start n with
  | nil => rfl
  | cons p ps ih =>
    have hbytes : byteKinds (p :: ps) = List.replicate (Text.width p.2.text) p.1 ++ byteKinds ps := rfl
    rw [hbytes, layOut, List.find?_cons]
    rcases Nat.lt_or_ge n (Text.width p.2.text) with hn | hn
    · -- the byte is one of the first stretch
      have hstop : start + n < start + Text.width p.2.text := by omega
      rw [List.getElem?_append_left (by simpa using hn), List.getElem?_replicate_of_lt hn]
      simp [Token.stop, Token.width, hstop]
    · obtain ⟨m, rfl⟩ := Nat.exists_eq_add_of_le hn
      have hstop : ¬ start + (Text.width p.2.text + m) < start + Text.width p.2.text := by omega
      have h := ih (start + Text.width p.2.text) m
      rw [Nat.add_assoc] at h
      rw [List.getElem?_append_right (by simp), List.length_replicate, Nat.add_sub_cancel_left, ← h]
      simp [Token.stop, Token.width, hstop]

namespace Language

variable (l : Language) (state : LineState) (offset : Nat)

theorem kindAt?_tokenize (t : Text) (n : Nat) :
    (l.tokenize t state offset).kindAt? n = (byteKinds (stretches (l.scan state t).1))[n]? := by
  rw [← find?_layOut offset 0 n, Nat.zero_add]
  rfl

theorem length_byteKinds_scan (t : Text) :
    (byteKinds (stretches (l.scan state t).1)).length = Text.width t := by
  have hlength : ∀ ps, (byteKinds ps).length = Text.width (stretchText ps) := by
    intro ps
    induction ps with
    | nil => rfl
    | cons p ps ih =>
      rw [stretchText_cons, Text.width_append, ← ih]
      simp [byteKinds]
  rw [hlength, stretchText_stretches, l.textOf_scan]

variable {l}

theorem scan_foldCase (hl : l ≠ .deuTex) (t : Text) :
    l.scan state (Text.foldCase t) = ((l.scan state t).1.map Run.folded, (l.scan state t).2) := by
  rw [scan_eq_machine_scan, scan_eq_machine_scan]
  exact Machine.scanFrom_foldCase (machine_ignoresCase hl) (l.machine.enter state) [] t

theorem byteKinds_scan_foldCase (hl : l ≠ .deuTex) (t : Text) :
    byteKinds (stretches (l.scan state (Text.foldCase t)).1) = byteKinds (stretches (l.scan state t).1) := by
  rw [scan_foldCase state hl, byteKinds_stretches, byteKinds_stretches, List.flatMap_map]
  simp [Run.folded]

end Language

/-- Texts that are the same up to the case of ASCII letters leave the same state, and each byte of them is
covered by tokens of the same kind, in all languages but texture lists. -/
theorem case_ignored {l : Language} (hl : l ≠ .deuTex) (state : LineState) (offset : Nat) {t t' : Text}
    (h : Text.foldCase t = Text.foldCase t') :
    (l.tokenize t state offset).next = (l.tokenize t' state offset).next ∧
    Text.width t = Text.width t' ∧
    ∀ n < Text.width t, ∃ kind,
      (l.tokenize t state offset).kindAt? n = some kind ∧
        (l.tokenize t' state offset).kindAt? n = some kind := by
  have hnext : ∀ u, (l.tokenize (Text.foldCase u) state offset).next = (l.tokenize u state offset).next := by
    intro u
    show (l.scan state (Text.foldCase u)).2 = (l.scan state u).2
    rw [Language.scan_foldCase state hl]
  -- both texts are lexed as the text that both fold to
  have hkinds : byteKinds (stretches (l.scan state t).1) = byteKinds (stretches (l.scan state t').1) := by
    rw [← Language.byteKinds_scan_foldCase state hl, h, Language.byteKinds_scan_foldCase state hl]
  refine ⟨by rw [← hnext, h, hnext], by rw [← Text.width_foldCase, h, Text.width_foldCase], ?_⟩
  intro n hn
  have hbyte : n < (byteKinds (stretches (l.scan state t).1)).length := by
    rwa [l.length_byteKinds_scan]
  refine ⟨(byteKinds (stretches (l.scan state t).1))[n], ?_, ?_⟩
  · rw [l.kindAt?_tokenize, List.getElem?_eq_getElem hbyte]
  · rw [l.kindAt?_tokenize, ← hkinds, List.getElem?_eq_getElem hbyte]

/-- A hexadecimal number, an escape, a word, a function and an address, whose scheme counts only when it is
in small letters; the second line is within a comment. -/
theorem case_ignored_two_lines :
    let t := "0xAf \"\\X4e\" A_Chase goto /* http://a\nb */ E".toList
    let t' := "0XaF \"\\x4E\" a_cHASE GOTO /* HTTP://a\nB */ e".toList
    Language.decoHack ≠ .deuTex ∧ Text.foldCase t = Text.foldCase t' ∧
    (Language.decoHack.tokenize t .neutral 0).next = (Language.decoHack.tokenize t' .neutral 0).next ∧
    Text.width t = Text.width t' ∧
    ∀ n < Text.width t, ∃ kind,
      (Language.decoHack.tokenize t .neutral 0).kindAt? n = some kind ∧
        (Language.decoHack.tokenize t' .neutral 0).kindAt? n = some kind :=
  ⟨by decide, by decide, case_ignored (by decide) .neutral 0 (by decide)⟩

end DoomLex
