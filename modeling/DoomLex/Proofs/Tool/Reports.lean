/-
The dump, the counts and the check of a file agree. All three walk over the lines of one document, so
each is read off the dump that shows whitespace: that dump spells the text of the file and tells where
in it every token stands, the other dumps leave records of it out, and the counts and the check number
its records.
-/
import DoomLex.Proofs.Document.OnePass
import DoomLex.Proofs.Tool.Counts
import DoomLex.Tool.Check
import DoomLex.Tool.Dump

namespace DoomLex

/-! ## Records of lines -/

namespace LineRecord

/-- The texts of the tokens of a line, put together. -/
def text (r : LineRecord) : Text := r.tokens.flatMap (·.text)

/-- The line with its whitespace shown or left out. -/
def shown (showWhitespace : Bool) (r : LineRecord) : LineRecord :=
  { r with tokens := r.tokens.filter fun k => showWhitespace || k.kind.category != .whitespace }

@[simp] theorem shown_true (r : LineRecord) : r.shown true = r := by
  simp [shown]

end LineRecord

namespace FileRecord

/-- The tokens of all lines. -/
def tokens (R : FileRecord) : List TokenRecord := R.lines.flatMap (·.tokens)

/-- The byte of the file at which a line starts: that after the line break of the line before. -/
def lineStart (R : FileRecord) (i : Nat) : Nat :=
  total (fun t => Text.width t + 1) ((R.lines.map (·.text)).take i)

/-- A dump that spells a text: its lines are those of the text, numbered from one, and every token of a
line stands behind those before it, at its place in the text. -/
structure Spells (R : FileRecord) (t : Text) : Prop where
  content : Text.joinLines (R.lines.map (·.text)) = t
  lines : R.lines.map (·.text) = Text.lines t
  number : ∀ i r, R.lines[i]? = some r → r.number = i + 1
  place : ∀ i r, R.lines[i]? = some r → ∀ before k after, r.tokens = before ++ k :: after →
    k.offset = R.lineStart i + Text.width (before.flatMap (·.text))
  column : ∀ i r, R.lines[i]? = some r → ∀ k ∈ r.tokens,
    1 ≤ k.column ∧ k.offset = R.lineStart i + (k.column - 1)
  slice : ∀ k ∈ R.tokens, Text.slice? t k.offset (k.offset + Text.width k.text) = some k.text

end FileRecord

namespace Dump

@[simp] theorem length_lineRecords (showWhitespace : Bool) (number : Nat) (ps : List (Nat × Line)) :
    (lineRecords showWhitespace number ps).length = ps.length := by
  induction ps generalizing number with
  | nil => rfl
  | cons p ps ih => rw [lineRecords, List.length_cons, List.length_cons, ih]

theorem getElem?_lineRecords (showWhitespace : Bool) (number : Nat) (ps : List (Nat × Line)) (i : Nat) :
    (lineRecords showWhitespace number ps)[i]? =
      ps[i]?.map fun p => lineRecord showWhitespace (number + i) p.1 p.2 := by
  induction ps generalizing number i with
  | nil => rfl
  | cons p ps ih =>
    cases i with
    | zero => rfl
    | succ i =>
      rw [lineRecords, List.getElem?_cons_succ, List.getElem?_cons_succ, ih, Nat.add_right_comm,
        Nat.add_assoc]

theorem filter_shows_true (tokens : List Token) : tokens.filter (shows true) = tokens :=
  List.filter_eq_self.2 fun _ _ => rfl

/-- Whitespace is left out of each line by itself; nothing else changes. -/
theorem lineRecords_eq_map_shown (showWhitespace : Bool) (number : Nat) (ps : List (Nat × Line)) :
    lineRecords showWhitespace number ps = (lineRecords true number ps).map (·.shown showWhitespace) := by
  induction ps generalizing number with
  | nil => rfl
  | cons p ps ih =>
    have hline : lineRecord showWhitespace number p.1 p.2 =
        (lineRecord true number p.1 p.2).shown showWhitespace := by
      rw [lineRecord, lineRecord, LineRecord.shown, filter_shows_true, List.filter_map]
      rfl
    rw [lineRecords, hline, ih]
    rfl

theorem tokens_lineRecord_true (number start : Nat) (line : Line) :
    (lineRecord true number start line).tokens = line.tokens.map (tokenRecord start) := by
  rw [lineRecord, filter_shows_true]

theorem map_tokens_lineRecords_true (number : Nat) (ps : List (Nat × Line)) :
    (lineRecords true number ps).map (·.tokens) = ps.map fun q => q.2.tokens.map (tokenRecord q.1) := by
  induction ps generalizing number with
  | nil => rfl
  | cons p ps ih => rw [lineRecords, List.map_cons, List.map_cons, ih, tokens_lineRecord_true]

/-! ## The dump of a text -/

/-- The dump of a text that shows whitespace. -/
def full (p : Path) (l : Language) (t : Text) : FileRecord :=
  ⟨p, l, lineRecords true 1 (Document.ofText l t).placed⟩

section Full

variable (p : Path) (l : Language) (t : Text)

theorem tokens_full :
    (full p l t).tokens = (Document.ofText l t).placed.flatMap fun q => q.2.tokens.map (tokenRecord q.1) := by
  rw [FileRecord.tokens, List.flatMap_def, full, map_tokens_lineRecords_true, List.flatMap_def]

theorem lines_full : (full p l t).lines.map (·.text) = Text.lines t := by
  have hrecords : (full p l t).lines.map (·.text) =
      ((full p l t).lines.map (·.tokens)).map fun ks => ks.flatMap (·.text) := by
    rw [List.map_map]
    rfl
  have htexts : ∀ q ∈ (Document.ofText l t).placed,
      (q.2.tokens.map (tokenRecord q.1)).flatMap (·.text) = q.2.text := by
    intro q hq
    have hlex := Document.eq_lex_of_mem_lexLines (List.of_mem_zip hq).2
    have htext := (l.covers_tokenize q.2.text q.2.before 0).text
    rw [List.flatMap_map, hlex]
    exact htext
  rw [hrecords, full, map_tokens_lineRecords_true, List.map_map]
  refine (List.map_congr_left htexts).trans ?_
  -- the places are put beside the lines, and leave them as they are
  have hlines := congrArg (List.map (·.text))
    (Document.map_snd_placed_index l (Document.lexLines l l.initialState (Text.lines t)))
  rw [List.map_map] at hlines
  exact hlines.trans (Document.map_text_lexLines l l.initialState (Text.lines t))

/-- Each line of the dump is the record of a line of the document, put where that line starts. -/
theorem exists_line_of_full {i : Nat} {r : LineRecord} (h : (full p l t).lines[i]? = some r) :
    ∃ line : Line, r.number = i + 1 ∧ r.tokens = line.tokens.map (tokenRecord ((full p l t).lineStart i)) ∧
      line.tokens = (l.tokenize line.text line.before 0).tokens ∧
      (Document.ofText l t).lineTokens? i = some (line.tokens.map (·.shift ((full p l t).lineStart i))) := by
  rw [full, getElem?_lineRecords] at h
  obtain ⟨⟨start, line⟩, hplaced, rfl⟩ := Option.map_eq_some_iff.1 h
  obtain ⟨-, hline⟩ := List.getElem?_zip_eq_some.1 hplaced
  have hi : i < (Text.lines t).length := by
    rw [← Document.length_lexLines l l.initialState (Text.lines t)]
    exact (List.getElem?_eq_some_iff.1 hline).1
  -- the records spell the lines, so they are as wide as those
  have hstart : start = (full p l t).lineStart i := by
    have hplace : (Document.ofText l t).lineStart? i = _ := Document.lineStart?_ofLines l hi
    rw [Document.ofText, Document.lineStart?_index] at hplace
    rw [Document.ofText] at hplaced
    rw [hplaced] at hplace
    rw [FileRecord.lineStart, lines_full]
    exact Option.some.inj hplace
  rw [← hstart]
  refine ⟨line, Nat.add_comm 1 i, tokens_lineRecord_true .., ?_, ?_⟩
  · have hlex := Document.eq_lex_of_mem_lexLines (List.mem_of_getElem? hline)
    exact congrArg Line.tokens hlex
  · rw [Document.lineTokens?, hplaced]
    rfl

theorem spells_full : (full p l t).Spells t := by
  refine ⟨?_, lines_full p l t, ?_, ?_, ?_, ?_⟩
  · rw [lines_full, Text.joinLines_lines]
  · intro i r hr
    obtain ⟨_, hnumber, -⟩ := exists_line_of_full p l t hr
    exact hnumber
  · intro i r hr before k after hsplit
    obtain ⟨line, -, htokens, hlexed, -⟩ := exists_line_of_full p l t hr
    rw [htokens] at hsplit
    -- the records before it are those of the tokens before it in the line
    obtain ⟨front, rest, hline, rfl, hrest⟩ := List.map_eq_append_iff.1 hsplit
    obtain ⟨k', back, rfl, rfl, rfl⟩ := List.map_eq_cons_iff.1 hrest
    rw [hlexed] at hline
    have hstart := start_of_layOut_eq 0 0 _ hline
    have hplace := (l.covers_tokenize line.text line.before 0).place k' (by rw [hline]; simp)
    have hbefore : (front.map (tokenRecord ((full p l t).lineStart i))).flatMap (·.text) =
        front.flatMap (·.text) := List.flatMap_map ..
    rw [hbefore]
    show k'.offset + (full p l t).lineStart i = _
    omega
  · intro i r hr k hk
    obtain ⟨line, -, htokens, hlexed, -⟩ := exists_line_of_full p l t hr
    rw [htokens, hlexed] at hk
    obtain ⟨k', hk', rfl⟩ := List.mem_map.1 hk
    have hplace := (l.covers_tokenize line.text line.before 0).place k' hk'
    constructor
    · exact Nat.le_add_left 1 k'.start
    · show k'.offset + _ = _ + (k'.start + 1 - 1)
      omega
  · intro k hk
    obtain ⟨r, hr, hk⟩ := List.mem_flatMap.1 hk
    obtain ⟨i, hi⟩ := List.mem_iff_getElem?.1 hr
    obtain ⟨line, -, htokens, -, hdocument⟩ := exists_line_of_full p l t hi
    rw [htokens] at hk
    obtain ⟨k', hk', rfl⟩ := List.mem_map.1 hk
    have hshifted := List.mem_map_of_mem (f := (·.shift ((full p l t).lineStart i))) hk'
    obtain ⟨_, -, -, hslice⟩ :=
      Document.slices_ofLines l (Text.lines_ne_nil t) hdocument hshifted
    rw [Text.joinLines_lines] at hslice
    exact hslice

theorem length_lines_full : (full p l t).lines.length = (Document.ofText l t).lineCount := by
  rw [full, length_lineRecords, Document.ofText, Document.length_placed_index]
  rfl

variable (showWhitespace : Bool)

theorem ofDocument_none : ofDocument showWhitespace none p (Document.ofText l t) =
    .ok ((full p l t).lines.map (·.shown showWhitespace)) := by
  rw [ofDocument, lineRecords_eq_map_shown]
  rfl

theorem ofDocument_some {n : Nat} {r : LineRecord} (h : (full p l t).lines[n]? = some r) :
    ofDocument showWhitespace (some (n + 1)) p (Document.ofText l t) = .ok [r.shown showWhitespace] := by
  have hn : n < (Document.ofText l t).lineCount := by
    rw [← length_lines_full p l t]
    exact (List.getElem?_eq_some_iff.1 h).1
  have hline : ((full p l t).lines.map (·.shown showWhitespace))[n]? = some (r.shown showWhitespace) := by
    rw [List.getElem?_map, h]
    rfl
  rw [ofDocument, lineRecords_eq_map_shown]
  show (if n + 1 = 0 ∨ _ then _ else _) = _
  rw [if_neg (by omega), Nat.add_sub_cancel, List.take_one, List.head?_drop]
  exact congrArg (fun line => Except.ok line.toList) hline

theorem ofDocument_outside {n : Nat} (h : n = 0 ∨ (full p l t).lines.length < n) :
    ofDocument showWhitespace (some n) p (Document.ofText l t) =
      .error (.noSuchLine n p (full p l t).lines.length) := by
  rw [length_lines_full] at h ⊢
  exact if_pos h

/-! ## The counts and the check of a text -/

theorem map_kind_tokens_full :
    (full p l t).tokens.map (·.kind) = ((Document.ofText l t).lines.flatMap (·.tokens)).map (·.kind) := by
  have hplaced : (Document.ofText l t).placed.map (·.2) = (Document.ofText l t).lines :=
    Document.map_snd_placed_index ..
  rw [tokens_full, ← hplaced, List.flatMap_map, List.map_flatMap, List.map_flatMap]
  simp only [List.map_map]
  rfl

/-- The faults of a document are told by the kinds of its tokens, and the errors of its dump by their
categories. -/
theorem length_faults : (Check.faults (Document.ofText l t)).length =
    (full p l t).tokens.countP (·.kind.category == .error) := by
  have hline : ∀ q : Nat × Line,
      (q.2.tokens.filterMap fun k => k.kind.fault?.map fun f => (f, k.shift q.1)).length =
        (q.2.tokens.map (tokenRecord q.1)).countP (·.kind.category == .error) := by
    intro q
    rw [List.length_filterMap_eq_countP, List.countP_map]
    refine List.countP_congr fun k _ => ?_
    rw [Option.isSome_map]
    exact Kind.isError_iff_fault.symm
  rw [tokens_full, List.countP_flatMap, Check.faults, List.length_flatMap]
  exact congrArg List.sum (List.map_congr_left fun q _ => hline q)

end Full

end Dump

/-! ## One story -/

/-- Counts that number the lines and the tokens of a dump, each name of a kind that occurs once, in the
order of first occurrences. -/
structure FileTally.Numbers (S : FileTally) (R : FileRecord) : Prop where
  file : S.file = R.file
  language : S.language = R.language
  lineCount : S.lineCount = R.lines.length
  tokenCount : S.tokenCount = R.tokens.length
  kinds : S.kinds.map (fun e => (e.1.name, e.2)) =
    (R.tokens.map (·.kind.name)).eraseDups.map fun n => (n, (R.tokens.map (·.kind.name)).count n)

/-- A report that numbers the errors of a dump. -/
structure FileReport.Numbers (C : FileReport) (R : FileRecord) : Prop where
  file : C.file = R.file
  language : C.language = R.language
  faultCount : C.faultCount = R.tokens.countP (·.kind.category == .error)

/-- Dumps that have of a dump what their options ask for: all of its lines or one of them, with their
whitespace or without. -/
structure Dump.Selects (dump : DumpOptions → Except ToolError FileRecord) (R : FileRecord)
    (language : Option Text) (configured : Bool) : Prop where
  all : ∀ format showWhitespace, dump ⟨language, format, none, showWhitespace⟩ =
    .ok { R with lines := R.lines.map (·.shown (showWhitespace || configured)) }
  one : ∀ format showWhitespace n r, R.lines[n]? = some r →
    dump ⟨language, format, some (n + 1), showWhitespace⟩ =
      .ok { R with lines := [r.shown (showWhitespace || configured)] }
  outside : ∀ format showWhitespace n, n = 0 ∨ R.lines.length < n →
    dump ⟨language, format, some n, showWhitespace⟩ = .error (.noSuchLine n R.file R.lines.length)

theorem Tally.numbers_full (p : Path) (l : Language) (t : Text) :
    (Tally.ofDocument p (Document.ofText l t)).Numbers (Dump.full p l t) := by
  refine ⟨rfl, rfl, (Dump.length_lines_full p l t).symm, ?_, ?_⟩
  · have hlength := congrArg List.length (Dump.map_kind_tokens_full p l t)
    rw [List.length_map, List.length_map] at hlength
    rw [hlength, ← total_countKinds]
    rfl
  · have hnames := congrArg (List.map Kind.name) (Dump.map_kind_tokens_full p l t)
    rw [List.map_map, List.map_map] at hnames
    have hcounts := names_countKinds ((Document.ofText l t).lines.flatMap (·.tokens))
    exact hnames ▸ hcounts

section OfFile

variable {fs : FileTree} {s : Settings} {language : Option Text} {p : Path} {l : Language} {t : Text}

theorem Dump.ofFile_of_openSource (o : DumpOptions)
    (h : fs.openSource s.lex o.language p = .ok (Document.ofText l t)) :
    Dump.ofFile fs s o p =
      (Dump.ofDocument (o.showWhitespace || s.output.showWhitespace) o.line p (Document.ofText l t)).map
        fun lines => ⟨p, l, lines⟩ := by
  rw [Dump.ofFile, h]
  dsimp only
  cases Dump.ofDocument (o.showWhitespace || s.output.showWhitespace) o.line p (Document.ofText l t) <;> rfl

theorem Dump.selects_full (h : fs.openSource s.lex language p = .ok (Document.ofText l t)) :
    Dump.Selects (Dump.ofFile fs s · p) (Dump.full p l t) language s.output.showWhitespace := by
  have hdump := fun format line showWhitespace =>
    Dump.ofFile_of_openSource ⟨language, format, line, showWhitespace⟩ h
  refine ⟨?_, ?_, ?_⟩
  · intro format showWhitespace
    rw [hdump, Dump.ofDocument_none]
    rfl
  · intro format showWhitespace n r hr
    rw [hdump, Dump.ofDocument_some p l t _ hr]
    rfl
  · intro format showWhitespace n hn
    rw [hdump, Dump.ofDocument_outside p l t _ hn]
    rfl

/-- The dump, the counts and the check of a file tell one story. The dump that shows whitespace spells the
text of the file; the other dumps have its lines without the whitespace, or the one line asked for; the
counts number its lines, its tokens and the names of their kinds; and the check counts its tokens of the
category of errors. -/
theorem reports_agree (hl : s.lex.resolve language p = .ok l) (ht : fs.readSource p = .ok t) :
    ∃ (R : FileRecord) (S : FileTally) (C : FileReport),
      Dump.ofFile fs s ⟨language, none, none, true⟩ p = .ok R ∧
      Tally.ofFile fs s.lex language p = .ok S ∧
      Check.ofFile fs s language p = .ok C ∧
      R.file = p ∧ R.language = l ∧ R.Spells t ∧
      Dump.Selects (Dump.ofFile fs s · p) R language s.output.showWhitespace ∧ S.Numbers R ∧ C.Numbers R := by
  have hopen : fs.openSource s.lex language p = .ok (Document.ofText l t) := by
    simp only [FileTree.openSource, hl, ht]
  have hselects := Dump.selects_full (s := s) hopen
  refine ⟨Dump.full p l t, Tally.ofDocument p (Document.ofText l t),
    Check.ofText s.check.maxErrors.toNat p l t, ?_, ?_, ?_, rfl, rfl, Dump.spells_full p l t, hselects,
    Tally.numbers_full p l t, rfl, rfl, Dump.length_faults p l t⟩
  · rw [hselects.all]
    simp
  · rw [Tally.ofFile, hopen]
  · rw [Check.ofFile, hl, ht]

end OfFile

/-- A script with a malformed number and a string that its line ends. -/
theorem reports_agree_script :
    let p : Path := ⟨"a.dh".toList⟩
    let t : Text := "x = 0x;\n\t\"é".toList
    let fs : FileTree := ⟨[], [([p.spelling], .file (.text t))]⟩
    let s : Settings := .default 4
    s.lex.resolve none p = .ok .decoHack ∧ fs.readSource p = .ok t ∧
      ∃ (R : FileRecord) (S : FileTally) (C : FileReport),
        Dump.ofFile fs s ⟨none, none, none, true⟩ p = .ok R ∧
        Tally.ofFile fs s.lex none p = .ok S ∧
        Check.ofFile fs s none p = .ok C ∧
        R.file = p ∧ R.language = .decoHack ∧ R.Spells t ∧
        Dump.Selects (Dump.ofFile fs s · p) R none s.output.showWhitespace ∧ S.Numbers R ∧ C.Numbers R := by
  intro p t fs s
  have hl : s.lex.resolve none p = .ok .decoHack := rfl
  have ht : fs.readSource p = .ok t := rfl
  exact ⟨hl, ht, reports_agree hl ht⟩

end DoomLex
