/-
Editing a document equals lexing it from scratch: whatever edits lead to a document, its lines are those
that lexing its texts one after the other gives, so that nothing of the way there is left in it. The
invariant is that equation; each edit keeps it, for the lines that it does not lex anew start in the
state in which they would start.
-/
import DoomLex.Document
import Mathlib.Data.List.Chain
import Mathlib.Tactic.SplitIfs

namespace DoomLex.Document

/-! ## Edits -/

/-- An edit of a document. -/
inductive Edit where
  | replace (line : Nat) (text : Text)
  | insert (line : Nat) (text : Text)
  | remove (line : Nat)
deriving DecidableEq, Repr

namespace Edit

/-- The line that an edit is about. -/
def line : Edit → Nat
  | replace i _ | insert i _ | remove i => i

/-- Whether a document with a number of lines has the line; a line may be inserted after the last one. -/
def InRange : Edit → Nat → Prop
  | replace i _, count | remove i, count => i < count
  | insert i _, count => i ≤ count

/-- What the edit does to a document; the number of lines lexed comes with it. -/
def run : Edit → Document → Except NoSuchLine (Document × Nat)
  | replace i t, d => d.replaceLine i t
  | insert i t, d => d.insertLine i t
  | remove i, d => d.removeLine i

/-- What the edit does to the texts of the lines: nothing if there is no such line; the only line is
emptied and not removed. -/
def onTexts : Edit → List Text → List Text
  | replace i t, texts => texts.set i t
  | insert i t, texts => texts.insertIdx i t
  | remove i, texts => if i = 0 ∧ texts.length = 1 then [[]] else texts.eraseIdx i

end Edit

/-- The document after an edit; it stays as it is if the edit fails. -/
def edited (d : Document) (e : Edit) : Document :=
  match e.run d with
  | .ok (d', _) => d'
  | .error _ => d

/-- The document after edits, one after the other. -/
def editedBy (d : Document) (edits : List Edit) : Document := edits.foldl edited d

/-- The texts after edits, one after the other. -/
def Edit.allOnTexts (texts : List Text) (edits : List Edit) : List Text :=
  edits.foldl (fun texts e => e.onTexts texts) texts

/-! ## Lexing from scratch -/

/-- The document of lines, each lexed from the state in which the one before it ends. -/
def ofLines (l : Language) (texts : List Text) : Document := index l (lexLines l l.initialState texts)

section LexLines

variable (l : Language) (state : LineState)

@[simp] theorem map_text_lexLines (texts : List Text) : (lexLines l state texts).map (·.text) = texts := by
  induction texts generalizing state with
  | nil => rfl
  | cons t texts ih => simp [lexLines, Line.lex, ih]

@[simp] theorem length_lexLines (texts : List Text) : (lexLines l state texts).length = texts.length := by
  rw [← List.length_map (f := (·.text)), map_text_lexLines]

theorem take_lexLines (texts : List Text) (i : Nat) :
    (lexLines l state texts).take i = lexLines l state (texts.take i) := by
  induction texts generalizing state i with
  | nil => simp [lexLines]
  | cons t texts ih =>
    cases i with
    | zero => rfl
    | succ i => simp [lexLines, ih]

theorem exists_drop_lexLines (texts : List Text) (i : Nat) :
    ∃ state', (lexLines l state texts).drop i = lexLines l state' (texts.drop i) := by
  induction texts generalizing state i with
  | nil => exact ⟨state, by simp [lexLines]⟩
  | cons t texts ih =>
    cases i with
    | zero => exact ⟨state, rfl⟩
    | succ i => exact ih _ i

/-- The state in which lines end, or the state itself if there is no line. -/
def endState (state : LineState) (lines : List Line) : LineState := (lines.getLast?.map (·.after)).getD state

theorem endState_cons (line : Line) (lines : List Line) :
    endState state (line :: lines) = endState line.after lines := by
  cases lines with
  | nil => rfl
  | cons line' lines =>
    have hlast := List.getLast?_eq_some_getLast (List.cons_ne_nil line' lines)
    rw [endState, endState, List.getLast?_cons_cons, hlast]
    rfl

theorem lexLines_append (texts texts' : List Text) :
    lexLines l state (texts ++ texts') =
      lexLines l state texts ++ lexLines l (endState state (lexLines l state texts)) texts' := by
  induction texts generalizing state with
  | nil => rfl
  | cons t texts ih => simp [lexLines, ih, endState_cons]

/-- Lexing on from another state gives what lexing from that state gives, though it stops at the first
line that starts in the state it was lexed with. -/
theorem relex_lexLines (state' : LineState) (texts : List Text) :
    (relex l state' (lexLines l state texts)).1 = lexLines l state' texts := by
  induction texts generalizing state state' with
  | nil => rfl
  | cons t texts ih =>
    simp only [lexLines, relex]
    split
    · -- the lines stay as they are, and they were lexed from the very state in which they start now
      rename_i hs
      have hstate : state = state' := hs
      rw [hstate]
    · simp only [ih]
      rfl

end LexLines

/-! ## Edits of documents lexed from scratch -/

theorem insertIdx_eq_take_append_drop {α : Type} {xs : List α} {i : Nat} (h : i ≤ xs.length) (a : α) :
    xs.insertIdx i a = xs.take i ++ a :: xs.drop i := by
  induction xs generalizing i with
  | nil =>
    obtain rfl : i = 0 := Nat.le_zero.1 h
    rfl
  | cons x xs ih =>
    cases i with
    | zero => rfl
    | succ i => simp [List.insertIdx_succ_cons, ih (Nat.le_of_succ_le_succ h)]

section OfLines

variable (l : Language) (texts : List Text)

@[simp] theorem texts_ofLines : (ofLines l texts).texts = texts := map_text_lexLines l l.initialState texts

@[simp] theorem lineCount_ofLines : (ofLines l texts).lineCount = texts.length :=
  length_lexLines l l.initialState texts

theorem stateBefore_eq_endState {d : Document} {i : Nat} (hi : i ≤ d.lineCount) :
    d.stateBefore i = endState d.language.initialState (d.lines.take i) := by
  cases i with
  | zero => rfl
  | succ i =>
    have hget : d.lines[i]? = some d.lines[i] := List.getElem?_eq_getElem hi
    simp [stateBefore, endState, List.getLast?_take, hget]

/-- The last lines lexed on from a state are their texts lexed from it. -/
theorem relex_drop_ofLines (state : LineState) (j : Nat) :
    (relex l state ((ofLines l texts).lines.drop j)).1 = lexLines l state (texts.drop j) := by
  obtain ⟨state', hdrop⟩ := exists_drop_lexLines l l.initialState texts j
  show (relex l state ((lexLines l l.initialState texts).drop j)).1 = lexLines l state (texts.drop j)
  rw [hdrop, relex_lexLines]

/-- Lines lexed on from the state before a line complete the lines before it. -/
theorem take_append_lexLines {i : Nat} (hi : i ≤ texts.length) (rest : List Text) :
    (ofLines l texts).lines.take i ++ lexLines l ((ofLines l texts).stateBefore i) rest =
      (ofLines l (texts.take i ++ rest)).lines := by
  rw [stateBefore_eq_endState (by rw [lineCount_ofLines]; exact hi)]
  show (lexLines l l.initialState texts).take i ++
    lexLines l (endState l.initialState ((lexLines l l.initialState texts).take i)) rest =
      lexLines l l.initialState (texts.take i ++ rest)
  rw [take_lexLines, lexLines_append]

theorem lexFrom_ofLines {i : Nat} (hi : i ≤ texts.length) (t : Text) (j : Nat) :
    ((ofLines l texts).lexFrom i t ((ofLines l texts).lines.drop j)).1 =
      ofLines l (texts.take i ++ t :: texts.drop j) := by
  have hrest := take_append_lexLines l texts hi (t :: texts.drop j)
  rw [lexLines, ← relex_drop_ofLines] at hrest
  exact congrArg (index l) hrest

theorem replaceLine_ofLines {i : Nat} (hi : i < texts.length) (t : Text) :
    ∃ count, (ofLines l texts).replaceLine i t = .ok (ofLines l (texts.set i t), count) := by
  rw [replaceLine, lineCount_ofLines, if_pos hi, List.set_eq_take_append_cons_drop, if_pos hi,
    ← lexFrom_ofLines l texts hi.le]
  exact ⟨_, rfl⟩

theorem insertLine_ofLines {i : Nat} (hi : i ≤ texts.length) (t : Text) :
    ∃ count, (ofLines l texts).insertLine i t = .ok (ofLines l (texts.insertIdx i t), count) := by
  rw [insertLine, lineCount_ofLines, if_pos hi, insertIdx_eq_take_append_drop hi,
    ← lexFrom_ofLines l texts hi]
  exact ⟨_, rfl⟩

theorem removeLine_ofLines {i : Nat} (hi : i < texts.length) :
    ∃ count, (ofLines l texts).removeLine i = .ok (ofLines l ((Edit.remove i).onTexts texts), count) := by
  rw [removeLine, lineCount_ofLines, if_pos hi, Edit.onTexts]
  by_cases hone : texts.length = 1
  · -- the only line is lexed anew from an empty text, with no line after it
    obtain rfl : i = 0 := by omega
    obtain ⟨t, rfl⟩ := List.length_eq_one_iff.1 hone
    have h := lexFrom_ofLines l [t] (Nat.zero_le _) [] 1
    rw [if_pos hone, if_pos ⟨rfl, hone⟩]
    exact ⟨_, congrArg (fun d => Except.ok (d, _)) h⟩
  · have hrest := take_append_lexLines l texts hi.le (texts.drop (i + 1))
    rw [← relex_drop_ofLines] at hrest
    rw [if_neg hone, if_neg (fun h => hone h.2), List.eraseIdx_eq_take_drop_succ]
    exact ⟨_, congrArg (fun lines => Except.ok (index l lines, _)) hrest⟩

/-- An edit in range gives the document of the edited texts. -/
theorem run_ofLines {e : Edit} (he : e.InRange texts.length) :
    ∃ count, e.run (ofLines l texts) = .ok (ofLines l (e.onTexts texts), count) := by
  cases e with
  | replace i t => exact replaceLine_ofLines l texts he t
  | insert i t => exact insertLine_ofLines l texts he t
  | remove i => exact removeLine_ofLines l texts he

end OfLines

/-- An edit that is not in range names its line and the number of lines. -/
theorem run_of_not_inRange {d : Document} {e : Edit} (he : ¬ e.InRange d.lineCount) :
    e.run d = .error ⟨e.line, d.lineCount⟩ := by
  cases e with
  | replace i t => exact if_neg he
  | insert i t => exact if_neg he
  | remove i => exact if_neg he

theorem edited_of_not_inRange {d : Document} {e : Edit} (he : ¬ e.InRange d.lineCount) :
    d.edited e = d := by
  rw [edited, run_of_not_inRange he]

theorem onTexts_of_not_inRange {e : Edit} {texts : List Text} (he : ¬ e.InRange texts.length) :
    e.onTexts texts = texts := by
  cases e with
  | replace i t => exact List.set_eq_of_length_le (Nat.le_of_not_lt he)
  | insert i t => exact List.insertIdx_of_length_lt (Nat.lt_of_not_le he)
  | remove i =>
    have hi : texts.length ≤ i := Nat.le_of_not_lt he
    rw [Edit.onTexts, if_neg (by omega), List.eraseIdx_of_length_le hi]

/-- The step: an edit of a document lexed from scratch gives the edited texts lexed from scratch. -/
theorem edited_ofLines (l : Language) (texts : List Text) (e : Edit) :
    (ofLines l texts).edited e = ofLines l (e.onTexts texts) := by
  by_cases he : e.InRange texts.length
  · obtain ⟨count, h⟩ := run_ofLines l texts he
    rw [edited, h]
  · rw [onTexts_of_not_inRange he]
    exact edited_of_not_inRange (by rw [lineCount_ofLines]; exact he)

/-- The run: so does a whole list of edits. -/
theorem editedBy_ofLines (l : Language) (texts : List Text) (edits : List Edit) :
    (ofLines l texts).editedBy edits = ofLines l (Edit.allOnTexts texts edits) := by
  induction edits generalizing texts with
  | nil => rfl
  | cons e edits ih =>
    show ((ofLines l texts).edited e).editedBy edits = _
    rw [edited_ofLines, ih]
    rfl

theorem onTexts_ne_nil {texts : List Text} (h : texts ≠ []) (e : Edit) : e.onTexts texts ≠ [] := by
  have hlen := List.length_pos_iff.2 h
  cases e with
  | replace i t =>
    rw [← List.length_pos_iff, Edit.onTexts, List.length_set]
    exact hlen
  | insert i t =>
    rw [← List.length_pos_iff, Edit.onTexts]
    exact Nat.lt_of_lt_of_le hlen List.length_le_length_insertIdx
  | remove i =>
    rw [Edit.onTexts]
    split_ifs with hone
    · simp
    · rw [← List.length_pos_iff, List.length_eraseIdx]
      split_ifs <;> omega

theorem allOnTexts_ne_nil {texts : List Text} (h : texts ≠ []) (edits : List Edit) :
    Edit.allOnTexts texts edits ≠ [] := by
  induction edits generalizing texts with
  | nil => exact h
  | cons e edits ih => exact ih (onTexts_ne_nil h e)

/-! ## What holds of every document reached -/

/-- A document in which every line is lexed from the state in which the line before it ends, and is
found at the byte at which it starts. -/
structure Coherent (d : Document) : Prop where
  nonempty : 0 < d.lineCount
  first : ∀ line, d.lines.head? = some line → line.before = d.language.initialState
  next : d.lines.IsChain fun a b => b.before = a.after
  lexed : ∀ line ∈ d.lines,
    line.tokens = (d.language.tokenize line.text line.before 0).tokens ∧
      line.after = (d.language.tokenize line.text line.before 0).next
  start : ∀ i < d.lineCount, d.lineStart? i = some (total (fun t => Text.width t + 1) (d.texts.take i))

theorem isChain_lexLines (l : Language) (state : LineState) (texts : List Text) :
    (lexLines l state texts).IsChain fun a b => b.before = a.after := by
  induction texts generalizing state with
  | nil => exact .nil
  | cons t texts ih =>
    refine List.isChain_cons.2 ⟨?_, ih _⟩
    intro line hline
    cases texts with
    | nil => cases hline
    | cons u texts => cases hline; rfl

theorem eq_lex_of_mem_lexLines {l : Language} {state : LineState} {texts : List Text} {line : Line}
    (h : line ∈ lexLines l state texts) : line = Line.lex l line.before line.text := by
  induction texts generalizing state with
  | nil => cases h
  | cons t texts ih =>
    rcases List.mem_cons.1 h with rfl | h
    · rfl
    · exact ih h

theorem getElem?_startsFrom (offset : Nat) {lines : List Line} {i : Nat} (hi : i < lines.length) :
    (startsFrom offset lines)[i]? =
      some (offset + total (fun t => Text.width t + 1) ((lines.map (·.text)).take i)) := by
  induction lines generalizing offset i with
  | nil => cases hi
  | cons line lines ih =>
    cases i with
    | zero => rfl
    | succ i =>
      show (startsFrom (offset + Text.width line.text + 1) lines)[i]? = _
      rw [ih _ (Nat.lt_of_succ_lt_succ hi)]
      simp [Nat.add_assoc]

theorem lineStart?_ofLines (l : Language) {texts : List Text} {i : Nat} (hi : i < texts.length) :
    (ofLines l texts).lineStart? i = some (total (fun t => Text.width t + 1) (texts.take i)) := by
  have hlines : i < (lexLines l l.initialState texts).length := by
    rw [length_lexLines]
    exact hi
  have h := getElem?_startsFrom 0 hlines
  rw [map_text_lexLines, Nat.zero_add] at h
  exact h

theorem coherent_ofLines (l : Language) {texts : List Text} (h : texts ≠ []) :
    (ofLines l texts).Coherent := by
  refine ⟨?_, ?_, isChain_lexLines l _ texts, ?_, ?_⟩
  · rw [lineCount_ofLines]
    exact List.length_pos_iff.2 h
  · intro line hline
    cases texts with
    | nil => cases hline
    | cons t texts => cases hline; rfl
  · intro line hline
    have hlex := eq_lex_of_mem_lexLines hline
    exact ⟨congrArg Line.tokens hlex, congrArg Line.after hlex⟩
  · intro i hi
    rw [lineCount_ofLines] at hi
    rw [texts_ofLines]
    exact lineStart?_ofLines l hi

/-- Whatever edits lead from a text to a document: its texts are those that the edits make of the lines
of the text, it is coherent, an edit in range is done and one that is not is refused and changes
nothing, and any edits that lead to the same texts lead to the same document. -/
theorem editedBy_lexes_afresh (l : Language) (t : Text) (edits : List Edit) :
    let d := (ofText l t).editedBy edits
    d.language = l ∧ d.texts = Edit.allOnTexts (Text.lines t) edits ∧ d.Coherent ∧
    (∀ e : Edit, e.InRange d.lineCount → ∃ count, e.run d = .ok (d.edited e, count)) ∧
    (∀ e : Edit, ¬ e.InRange d.lineCount → e.run d = .error ⟨e.line, d.lineCount⟩ ∧ d.edited e = d) ∧
    ∀ (t' : Text) (edits' : List Edit), ((ofText l t').editedBy edits').texts = d.texts →
      (ofText l t').editedBy edits' = d := by
  have hreach : ∀ (t : Text) (edits : List Edit),
      (ofText l t).editedBy edits = ofLines l (Edit.allOnTexts (Text.lines t) edits) :=
    fun t edits => editedBy_ofLines l (Text.lines t) edits
  have hne := allOnTexts_ne_nil (Text.lines_ne_nil t) edits
  -- from here on nothing is known of the way to the document but the texts it led to
  simp only [hreach, texts_ofLines]
  generalize Edit.allOnTexts (Text.lines t) edits = texts at hne
  refine ⟨rfl, trivial, coherent_ofLines l hne, ?_, ?_, ?_⟩
  · intro e he
    rw [lineCount_ofLines] at he
    rw [edited_ofLines]
    exact run_ofLines l texts he
  · intro e he
    exact ⟨run_of_not_inRange he, edited_of_not_inRange he⟩
  · intro t' edits' h
    rw [h]

end DoomLex.Document
