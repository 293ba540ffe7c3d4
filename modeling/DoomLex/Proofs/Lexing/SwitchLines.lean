/-
Lists of switches and animations are lexed by cutting their lines at blanks. The first stretch between blanks
that starts with a number sign makes a comment of the rest of its line; before it each stretch is one token,
and its kind can be told from the stretch as a whole: the scan, which takes digits for a number until another
character makes a word of them, comes to the same. The proof follows the line from stretch to stretch.
-/
import DoomLex.Proofs.Lexing.Emission
import DoomLex.Proofs.Lexing.Lines
import DoomLex.Proofs.Text.Words
import Mathlib.Data.List.SplitBy

namespace DoomLex

/-! ## Stretches of a line -/

namespace Text

/-- The line cut wherever a blank and another character meet. -/
def cutAtBlanks (line : Text) : List Text := line.splitBy fun c d => isBlank c == isBlank d

theorem cutAtBlanks_append {w rest : Text} {b : Bool} (hne : w ≠ []) (hw : ∀ c ∈ w, isBlank c = b)
    (hrest : ∀ c ∈ rest.head?, isBlank c = !b) : cutAtBlanks (w ++ rest) = w :: cutAtBlanks rest := by
  have halone : cutAtBlanks w = [w] := by
    refine List.splitBy_of_isChain hne (List.Pairwise.isChain ?_)
    refine List.Pairwise.imp_of_mem ?_ (List.pairwise_of_forall (R := fun _ _ => True) fun _ _ => trivial)
    intro c d hc hd _
    rw [hw c hc, hw d hd]
    exact beq_self_eq_true b
  have happend : cutAtBlanks (w ++ rest) = cutAtBlanks w ++ cutAtBlanks rest := by
    refine List.splitBy_append ?_
    intro c hc d hd
    rw [hw c (List.mem_of_getLast? hc), hrest d hd]
    cases b <;> rfl
  rw [happend, halone, List.singleton_append]

/-- A line starts with a stretch of blanks or of other characters, which is cut off. -/
theorem exists_stretch {line : Text} (hne : line ≠ []) :
    ∃ b w rest, line = w ++ rest ∧ w ≠ [] ∧ (∀ c ∈ w, isBlank c = b) ∧ ∀ c ∈ rest.head?, isBlank c = !b := by
  obtain ⟨c, t, rfl⟩ := List.exists_cons_of_ne_nil hne
  obtain ⟨w, rest, rfl, hw, hrest⟩ := exists_span (fun d => isBlank d == isBlank c) t
  refine ⟨isBlank c, c :: w, rest, rfl, List.cons_ne_nil _ _, ?_, ?_⟩
  · rw [List.forall_mem_cons]
    exact ⟨rfl, fun d hd => beq_iff_eq.1 (hw d hd)⟩
  · intro d hd
    have h := beq_eq_false_iff_ne.1 (hrest d hd)
    cases hc : isBlank c <;> cases hd' : isBlank d <;> simp_all

end Text

namespace SwitchList

/-! ## The kinds of stretches -/

/-- The names of the section headers. -/
def headers : List String := ["[SWITCHES]", "[FLATS]", "[TEXTURES]"]

/-- The kind of a stretch of blanks or of other characters. -/
def stretchKind (w : Text) : Kind :=
  if w.all Text.isBlank then .whitespace
  else if w.all Text.isDigit then .decimal
  else if headers.any (fun name => Text.sameFolded name.toList w) then .reservedWord
  else .identifier

/-- The runs of the stretches of a line: one for each before the first with a number sign in front, and one
for all the rest. -/
def runsOfStretches : List Text → List Run
  | [] => []
  | w :: rest =>
    if w.head? = some '#' then [⟨.lineComment, (w :: rest).flatten⟩]
    else ⟨stretchKind w, w⟩ :: runsOfStretches rest

/-- The runs of a line. -/
def lineRuns (line : Text) : List Run := runsOfStretches (Text.cutAtBlanks line)

theorem forgets : machine.Forgets := ⟨fun _ => rfl, fun _ => rfl⟩

theorem words_get? (w : Text) :
    words.get? w =
      if headers.any (fun name => Text.sameFolded name.toList w) then some .reservedWord else none :=
  get?_wordsOf_nil headers w

/-! ## The scan of a stretch -/

/-- The state in which a stretch without blanks is scanned to its end. -/
def afterStretch (w : Text) : Scan := if w.all Text.isDigit then .decimal else .word

section Stretches

variable {w : Text} {c : Char}

theorem takes_word (hnewline : '\n' ∉ w) (hw : ∀ c ∈ w, Text.isBlank c = false) :
    machine.Takes .word w .word := by
  refine .of_forall hnewline ?_
  intro c hc
  show answer .word c = .take .word
  simp [answer, hw c hc]

/-- Digits keep a number one, and the first other character makes it a word. -/
theorem takes_afterStretch (c : Char) (hnewline : '\n' ∉ w) (hw : ∀ c ∈ w, Text.isBlank c = false) :
    machine.Takes (if Text.isDigit c then .decimal else .word) w (afterStretch (c :: w)) := by
  -- by induction along the stretch, with the state that its first character leads to
  induction w generalizing c with
  | nil =>
    unfold afterStretch
    cases hdigit : Text.isDigit c <;> simp [hdigit] <;> exact .nil
  | cons d w ih =>
    cases hdigit : Text.isDigit c with
    | false =>
      have hafter : afterStretch (c :: d :: w) = .word := by simp [afterStretch, hdigit]
      rw [hafter]
      exact takes_word hnewline hw
    | true =>
      rw [List.mem_cons, not_or] at hnewline
      obtain ⟨hd, hw⟩ := List.forall_mem_cons.1 hw
      have hanswer : machine.answer .decimal d = .take (if Text.isDigit d then .decimal else .word) := by
        show answer .decimal d = _
        simp only [answer, hd, Bool.false_eq_true, if_false]
        split_ifs <;> rfl
      have hafter : afterStretch (c :: d :: w) = afterStretch (d :: w) := by simp [afterStretch, hdigit]
      rw [hafter]
      exact .cons (Ne.symm hnewline.1) hanswer (ih d hnewline.2 hw)

theorem takes_stretch (hne : w ≠ []) (hnewline : '\n' ∉ w) (hw : ∀ c ∈ w, Text.isBlank c = false)
    (hsign : w.head? ≠ some '#') : machine.Takes .neutral w (afterStretch w) := by
  obtain ⟨c, w, rfl⟩ := List.exists_cons_of_ne_nil hne
  rw [List.mem_cons, not_or] at hnewline
  obtain ⟨hc, hw⟩ := List.forall_mem_cons.1 hw
  have hfirst : c ≠ '#' := by
    rintro rfl
    exact hsign rfl
  have hanswer : machine.answer .neutral c = .take (if Text.isDigit c then .decimal else .word) := by
    show answer .neutral c = _
    simp only [answer, hfirst, hc, Bool.false_eq_true, if_false]
    split_ifs <;> rfl
  exact .cons (Ne.symm hnewline.1) hanswer (takes_afterStretch c hnewline.2 hw)

theorem takes_blanks (hne : w ≠ []) (hnewline : '\n' ∉ w) (hw : ∀ c ∈ w, Text.isBlank c = true) :
    machine.Takes .neutral w .blank := by
  have hsign : ∀ c ∈ w, c ≠ '#' := by
    rintro c hc rfl
    exact absurd (hw _ hc) (by decide)
  obtain ⟨c, w, rfl⟩ := List.exists_cons_of_ne_nil hne
  rw [List.mem_cons, not_or] at hnewline
  obtain ⟨hc, hw⟩ := List.forall_mem_cons.1 hw
  have hanswer : machine.answer .neutral c = .take .blank := by
    show answer .neutral c = _
    simp [answer, hsign c List.mem_cons_self, hc]
  refine .cons (Ne.symm hnewline.1) hanswer (.of_forall hnewline.2 ?_)
  intro d hd
  show answer .blank d = .take .blank
  simp [answer, hw d hd]

theorem takes_comment (hnewline : '\n' ∉ w) (hsign : w.head? = some '#') :
    machine.Takes .neutral w .comment := by
  cases w with
  | nil => cases hsign
  | cons c w =>
    obtain rfl : c = '#' := Option.some.inj hsign
    rw [List.mem_cons, not_or] at hnewline
    exact .cons (Ne.symm hnewline.1) rfl (.of_forall hnewline.2 fun _ _ => rfl)

theorem label_afterStretch (hne : w ≠ []) (hw : ∀ c ∈ w, Text.isBlank c = false) :
    label (afterStretch w) w = stretchKind w := by
  have hblank : w.all Text.isBlank = false := by
    obtain ⟨c, w, rfl⟩ := List.exists_cons_of_ne_nil hne
    simp [hw c List.mem_cons_self]
  unfold afterStretch stretchKind
  rw [hblank, if_neg Bool.false_ne_true]
  split_ifs with hdigits hheader
  · rfl
  · simp [label, words_get?, hheader]
  · simp [label, words_get?, hheader]

end Stretches

/-! ## The scan of a line -/

theorem answer_blank {c : Char} (hc : Text.isBlank c = false) : machine.answer .blank c = .cut .neutral := by
  show answer .blank c = _
  simp [answer, hc]

theorem answer_afterStretch {c : Char} (hc : Text.isBlank c = true) (w : Text) :
    machine.answer (afterStretch w) c = .cut .neutral := by
  show answer (afterStretch w) c = _
  unfold afterStretch
  split_ifs <;> simp [answer, hc]

/-- A stretch is scanned as one run, and the rest of the line as a line of its own. -/
theorem scanFrom_stretch {b : Bool} {w rest : Text} (hne : w ≠ []) (hnewline : '\n' ∉ w ++ rest)
    (hw : ∀ c ∈ w, Text.isBlank c = b) (hrest : ∀ c ∈ rest.head?, Text.isBlank c = !b)
    (hsign : w.head? ≠ some '#') :
    machine.scanFrom .neutral [] (w ++ rest) =
      (⟨stretchKind w, w⟩ :: (machine.scanFrom .neutral [] rest).1, (machine.scanFrom .neutral [] rest).2) := by
  rw [List.mem_append, not_or] at hnewline
  have hnext : ∀ c ∈ rest.head?, (machine.answer .neutral c).rewinds = false := fun c _ => rewinds_neutral c
  cases b with
  | true =>
    have hkind : stretchKind w = .whitespace := if_pos (List.all_eq_true.2 hw)
    rw [hkind]
    exact Machine.scanFrom_of_takes_cut (takes_blanks hne hnewline.1 hw) hne
      (fun c hc => answer_blank (hrest c hc)) hnext rfl rfl
  | false =>
    rw [← label_afterStretch hne hw]
    exact Machine.scanFrom_of_takes_cut (takes_stretch hne hnewline.1 hw hsign) hne
      (fun c hc => answer_afterStretch (hrest c hc) w) hnext rfl rfl

theorem scan_line {line : Text} (hnewline : '\n' ∉ line) : (machine.scan .neutral line).1 = lineRuns line := by
  show (machine.scanFrom .neutral [] line).1 = lineRuns line
  -- by induction on the length of the line, from one stretch to the next
  induction hlen : line.length using Nat.strongRecOn generalizing line with
  | ind n ih =>
    by_cases hline : line = []
    · subst hline
      rfl
    · obtain ⟨b, w, rest, rfl, hne, hw, hrest⟩ := Text.exists_stretch hline
      have hcut := Text.cutAtBlanks_append hne hw hrest
      by_cases hsign : w.head? = some '#'
      · have hall : (w ++ rest).head? = some '#' := by
          rw [List.head?_append, hsign]
          rfl
        have hflat : (w :: Text.cutAtBlanks rest).flatten = w ++ rest := by
          rw [← hcut]
          exact List.flatten_splitBy _ _
        rw [Machine.scanFrom_of_takes_all (takes_comment hnewline hall), lineRuns, hcut, runsOfStretches,
          if_pos hsign, hflat]
        simp [Run.ofPending, hne]
        rfl
      · have hshort : rest.length < n := by
          have := List.length_pos_iff.2 hne
          rw [List.length_append] at hlen
          omega
        have hmore := ih _ hshort (fun h => hnewline (List.mem_append_right _ h)) rfl
        rw [scanFrom_stretch hne hnewline hw hrest hsign, hmore, lineRuns, lineRuns, hcut, runsOfStretches,
          if_neg hsign]

end SwitchList

/-- A list of switches and animations is lexed line by line, in whatever state it starts, and each line by
cutting it at blanks: before the first stretch with a number sign in front, from which on all is a comment,
each stretch is one run, and its kind is that of the whole stretch. The tokens are these runs and cover the list,
before links are carved out of them. -/
theorem switches_split_at_blanks (t : Text) (state : LineState) (offset : Nat) :
    Language.defSwAni.LexesInto t state offset
        ([Run.newline].intercalate ((Text.lines t).map SwitchList.lineRuns)) .neutral ∧
      Language.defSwAni.tokenize t state offset =
        ⟨tokensOf offset ([Run.newline].intercalate ((Text.lines t).map SwitchList.lineRuns)), .neutral⟩ := by
  have hlines : (Text.lines t).map (fun line => (SwitchList.machine.scan .neutral line).1) =
      (Text.lines t).map SwitchList.lineRuns := by
    refine List.map_congr_left ?_
    intro line hline
    exact SwitchList.scan_line (Text.newline_notMem_of_mem_lines hline)
  have hscan : Language.defSwAni.scan state t =
      ([Run.newline].intercalate ((Text.lines t).map SwitchList.lineRuns), .neutral) := by
    rw [← hlines]
    exact SwitchList.forgets.scan_lines state t
  refine ⟨Language.lexesInto_of_scan hscan offset, ?_⟩
  simp only [Language.tokenize, hscan]

end DoomLex
