/-
A document agrees with its text lexed in one pass: the tokens kept with its lines, put at their places
in the document and with one for each line break between, are those of the whole text, also where a line
has line breaks of its own. Only the places within the lines differ, and no reader of the document as a
whole sees those.
-/
import DoomLex.Proofs.Document.Edits
import DoomLex.Proofs.Lexing.Resumption
import DoomLex.Proofs.Lexing.Stretches

namespace DoomLex

/-! ## Tokens by their places in the document -/

/-- What a document shows of a token: its kind, the byte at which it starts in the document, the number
of its bytes, and whether it is a link. -/
structure Mark where
  kind : Kind
  offset : Nat
  width : Nat
  link : Bool
deriving DecidableEq, Repr

namespace Token

/-- What a document shows of a token. -/
def mark (k : Token) : Mark := ⟨k.kind, k.offset, k.width, k.link⟩

/-- The token as if its text started with it. -/
def atStart (k : Token) : Token := { k with start := 0 }

@[simp] theorem atStart_behind (k : Token) (bytes : Nat) : (k.behind bytes).atStart = k.atStart := rfl

end Token

theorem layOut_shift (offset distance start : Nat) (ps : List (Kind × Piece)) :
    layOut (offset + distance) start ps = (layOut offset start ps).map (·.shift distance) := by
  induction ps generalizing start with
  | nil => rfl
  | cons p ps ih =>
    have hplace : offset + distance + start = offset + start + distance := by omega
    simp [layOut, ih, hplace, Token.shift]

/-- Lexing a text further on in the document moves its tokens there. -/
theorem Language.tokenize_shift (l : Language) (t : Text) (state : LineState) (offset distance : Nat) :
    l.tokenize t state (offset + distance) =
      ⟨(l.tokenize t state offset).tokens.map (·.shift distance), (l.tokenize t state offset).next⟩ := by
  simp only [tokenize, tokensOf_eq_layOut, layOut_shift]

namespace Document

/-! ## The listing of a document -/

/-- The token of the line break before a line; there is none before the first. -/
def breakBefore (d : Document) (i : Nat) : List Token :=
  match i, d.lineStart? i with
  | _ + 1, some start => [Token.newline (start - 1) 0]
  | _, _ => []

/-- The tokens of the lines, one line after the other, with a token for the line break between each
two. -/
def listing (d : Document) : List Token :=
  (List.range d.lineCount).flatMap fun i => d.breakBefore i ++ (d.lineTokens? i).getD []

/-- What the listing has of a line that starts at the given byte; a line break comes before all lines
but the first. -/
def lineListing (first : Bool) (p : Nat × Line) : List Token :=
  (if first then [] else [Token.newline (p.1 - 1) 0]) ++ p.2.tokens.map (·.shift p.1)

/-- The listing of lines, each with the byte at which it starts. -/
def listingFrom (first : Bool) : List (Nat × Line) → List Token
  | [] => []
  | p :: rest => lineListing first p ++ listingFrom false rest

theorem flatMap_range_lineListing (first : Bool) (ps : List (Nat × Line)) :
    ((List.range ps.length).flatMap fun i => (ps[i]?).elim [] (lineListing (first && i == 0))) =
      listingFrom first ps := by
  induction ps generalizing first with
  | nil => rfl
  | cons p ps ih =>
    rw [List.length_cons, List.range_succ_eq_map, List.flatMap_cons, List.flatMap_map, listingFrom, ← ih]
    simp

theorem length_startsFrom (start : Nat) (lines : List Line) :
    (startsFrom start lines).length = lines.length := by
  induction lines generalizing start with
  | nil => rfl
  | cons line lines ih => simp [startsFrom, ih]

section Index

variable (l : Language) (lines : List Line)

theorem length_placed_index : (index l lines).placed.length = lines.length := by
  show ((startsFrom 0 lines).zip lines).length = lines.length
  rw [List.length_zip, length_startsFrom, Nat.min_self]

theorem map_snd_placed_index : (index l lines).placed.map (·.2) = lines :=
  List.map_snd_zip (length_startsFrom 0 lines).ge

theorem lineStart?_index (i : Nat) :
    (index l lines).lineStart? i = ((index l lines).placed[i]?).map (·.1) := by
  have hstarts : (index l lines).placed.map (·.1) = startsFrom 0 lines :=
    List.map_fst_zip (length_startsFrom 0 lines).le
  rw [← List.getElem?_map, hstarts]
  rfl

theorem listing_index : (index l lines).listing = listingFrom true (index l lines).placed := by
  rw [← flatMap_range_lineListing, length_placed_index]
  show ((List.range lines.length).flatMap _) = _
  congr 1
  funext i
  unfold breakBefore lineTokens?
  rw [lineStart?_index]
  -- the first line has no line break before it, and the others have theirs just before their start
  cases i with
  | zero => cases (index l lines).placed[0]? <;> rfl
  | succ i => cases (index l lines).placed[i + 1]? <;> rfl

end Index

/-! ## One pass -/

section LexLines

variable (l : Language) (state : LineState)

theorem endState_lexLines (start : Nat) (ts : List Text) :
    endState state (lexLines l state ts) = (l.tokenizeLines state 0 start ts).next := by
  induction ts generalizing state start with
  | nil => rfl
  | cons t rest ih =>
    have hnext : (l.tokenize t state (0 + start)).next = (l.tokenize t state 0).next := by
      rw [Language.tokenize_shift]
    rw [lexLines, endState_cons]
    cases rest with
    | nil => exact hnext.symm
    | cons u rest =>
      rw [ih _ (start + Text.width t + 1), Language.tokenizeLines, hnext]
      rfl

/-- The listing of lines lexed one after the other is that of their texts lexed in one pass, places
within the lines apart. -/
theorem listingFrom_lexLines (start : Nat) (ts : List Text) :
    (listingFrom true ((startsFrom start (lexLines l state ts)).zip (lexLines l state ts))).map (·.atStart) =
      (l.tokenizeLines state 0 start ts).tokens.map (·.atStart) := by
  induction ts generalizing state start with
  | nil => rfl
  | cons t rest ih =>
    have hline : ((l.tokenize t state (0 + start)).tokens.map (·.behind start)).map (·.atStart) =
        ((l.tokenize t state 0).tokens.map (·.shift start)).map (·.atStart) := by
      rw [Language.tokenize_shift, List.map_map]
      rfl
    have hnext : (l.tokenize t state (0 + start)).next = (l.tokenize t state 0).next := by
      rw [Language.tokenize_shift]
    cases rest with
    | nil =>
      rw [Language.tokenizeLines, hline]
      simp [lexLines, startsFrom, listingFrom, lineListing, Line.lex]
    | cons u rest =>
      have hmore := ih (l.tokenize t state 0).next (start + Text.width t + 1)
      rw [Language.tokenizeLines]
      dsimp only
      rw [List.map_append, List.map_cons, hline, hnext, ← hmore]
      simp [lexLines, startsFrom, listingFrom, lineListing, Line.lex, Token.newline, Token.atStart]

end LexLines

section OfLines

variable (l : Language) {ts : List Text}

theorem listing_ofLines (h : ts ≠ []) :
    (ofLines l ts).listing.map (·.atStart) =
      (l.tokenize (Text.joinLines ts) l.initialState 0).tokens.map (·.atStart) := by
  have hpass := listingFrom_lexLines l l.initialState 0 ts
  rw [← l.tokenize_joinLines l.initialState 0 h] at hpass
  rw [← hpass, ofLines, listing_index]
  rfl

theorem marks_ofLines (h : ts ≠ []) :
    (ofLines l ts).listing.map (·.mark) =
      (l.tokenize (Text.joinLines ts) l.initialState 0).tokens.map (·.mark) := by
  have hmark : ∀ ks : List Token, ks.map (·.mark) = (ks.map (·.atStart)).map (·.mark) := by
    intro ks
    rw [List.map_map]
    rfl
  rw [hmark, listing_ofLines l h, ← hmark]

theorem text_ofLines (ts : List Text) : (ofLines l ts).text = Text.joinLines ts := by
  rw [text, texts_ofLines]

theorem stateAfter?_last_ofLines (h : ts ≠ []) :
    (ofLines l ts).stateAfter? ((ofLines l ts).lineCount - 1) =
      some (l.tokenize (Text.joinLines ts) l.initialState 0).next := by
  rw [l.tokenize_joinLines l.initialState 0 h, ← endState_lexLines, stateAfter?, lineCount,
    ← List.getLast?_eq_getElem?]
  show ((lexLines l l.initialState ts).getLast?).map (·.after) = some (endState l.initialState _)
  have hlines : lexLines l l.initialState ts ≠ [] := by
    rw [← List.length_pos_iff, length_lexLines]
    exact List.length_pos_iff.2 h
  rw [endState, List.getLast?_eq_some_getLast hlines]
  rfl

theorem mem_listing_of_mem_lineTokens? {d : Document} {i : Nat} {tokens : List Token} {k : Token}
    (hi : i < d.lineCount) (htokens : d.lineTokens? i = some tokens) (hk : k ∈ tokens) : k ∈ d.listing := by
  refine List.mem_flatMap.2 ⟨i, List.mem_range.2 hi, List.mem_append_right _ ?_⟩
  rw [htokens]
  exact hk

/-- The tokens of a line are those of its text, moved to the line's place in the document. -/
theorem exists_line_of_lineTokens? {i : Nat} {tokens : List Token}
    (h : (ofLines l ts).lineTokens? i = some tokens) :
    i < (ofLines l ts).lineCount ∧ ∃ (start : Nat) (line : Line),
      (ofLines l ts).lineText? i = some line.text ∧
      tokens = (l.tokenize line.text line.before 0).tokens.map (·.shift start) := by
  obtain ⟨⟨start, line⟩, hplaced, rfl⟩ := Option.map_eq_some_iff.1 h
  obtain ⟨-, hline⟩ := List.getElem?_zip_eq_some.1 hplaced
  obtain ⟨hi, -⟩ := List.getElem?_eq_some_iff.1 hline
  have hlex := eq_lex_of_mem_lexLines (List.mem_of_getElem? hline)
  have htokens : line.tokens = (l.tokenize line.text line.before 0).tokens := congrArg Line.tokens hlex
  refine ⟨hi, start, line, ?_, ?_⟩
  · rw [lineText?, hline]
    rfl
  · rw [← htokens]

/-- A token of a line stands over its text both in its line and, at its place there, in the document. -/
theorem slices_ofLines (h : ts ≠ []) {i : Nat} {tokens : List Token}
    (htokens : (ofLines l ts).lineTokens? i = some tokens) {k : Token} (hk : k ∈ tokens) :
    ∃ line, (ofLines l ts).lineText? i = some line ∧ Text.slice? line k.start k.stop = some k.text ∧
      Text.slice? (Text.joinLines ts) k.offset k.offsetStop = some k.text := by
  obtain ⟨hi, start, line, hline, hlexed⟩ := exists_line_of_lineTokens? l htokens
  refine ⟨line.text, hline, ?_, ?_⟩
  · obtain ⟨k₀, hk₀, rfl⟩ := List.mem_map.1 (hlexed ▸ hk)
    have hslice := (l.covers_tokenize line.text line.before 0).slice_stop hk₀
    exact hslice
  · -- the same token is one of those of the whole text, which cover it
    have hlisted := List.mem_map_of_mem (f := (·.atStart)) (mem_listing_of_mem_lineTokens? hi htokens hk)
    rw [listing_ofLines l h] at hlisted
    obtain ⟨k', hk', heq⟩ := List.mem_map.1 hlisted
    have hcovers := l.covers_tokenize (Text.joinLines ts) l.initialState 0
    have hslice := hcovers.slice_stop hk'
    have htext : k'.text = k.text := by
      show k'.atStart.text = k.atStart.text
      rw [heq]
    have hstart : k'.start = k.offset := by
      show _ = k.atStart.offset
      rw [← heq, ← Nat.zero_add k'.start]
      exact (hcovers.place k' hk').symm
    have hstop : k'.stop = k.offsetStop := by
      rw [Token.stop, Token.offsetStop, Token.width, Token.width, hstart, htext]
    rw [hstart, hstop, htext] at hslice
    exact hslice

end OfLines

/-- Whatever edits lead from a text to a document: its lines list the tokens that its text has when it is
lexed in one pass, which leaves the state that the last line leaves; every token stands over its text
both in its line and in the whole text; and the document of the whole text lists the same tokens, though
it may have more lines. -/
theorem editedBy_lists_one_pass (l : Language) (t : Text) (edits : List Edit) :
    let d := (ofText l t).editedBy edits
    let lexed := l.tokenize d.text l.initialState 0
    d.listing.map (·.mark) = lexed.tokens.map (·.mark) ∧
    d.stateAfter? (d.lineCount - 1) = some lexed.next ∧
    (∀ i tokens, d.lineTokens? i = some tokens → ∀ k ∈ tokens,
      ∃ line, d.lineText? i = some line ∧ Text.slice? line k.start k.stop = some k.text ∧
        Text.slice? d.text k.offset k.offsetStop = some k.text) ∧
    (ofText l d.text).listing.map (·.mark) = d.listing.map (·.mark) := by
  have hreach : (ofText l t).editedBy edits = ofLines l (Edit.allOnTexts (Text.lines t) edits) :=
    editedBy_ofLines l (Text.lines t) edits
  have hne := allOnTexts_ne_nil (Text.lines_ne_nil t) edits
  simp only [hreach, text_ofLines]
  generalize Edit.allOnTexts (Text.lines t) edits = ts at hne
  refine ⟨marks_ofLines l hne, stateAfter?_last_ofLines l hne, ?_, ?_⟩
  · intro i tokens htokens k hk
    exact slices_ofLines l hne htokens hk
  · have hfresh := marks_ofLines l (Text.lines_ne_nil (Text.joinLines ts))
    rw [Text.joinLines_lines] at hfresh
    rw [marks_ofLines l hne]
    exact hfresh

end Document

end DoomLex
