/-
Lexing resumes at every line break: the tokens of a text with a line break in it are those of the text
before it, one token for the line break, and those of the text after it, lexed from the state left
there. So a text may be lexed in one go or line by line, with the same tokens and the same state at the
end.
-/
import DoomLex.Proofs.Lexing.Layout

namespace DoomLex

/-- The token of a line break at byte `start` of a text that starts at byte `offset` of the document. -/
def Token.newline (offset start : Nat) : Token := ⟨.whitespace, ['\n'], start, offset + start, false⟩

theorem tokensOf_newline_cons (offset : Nat) (runs : List Run) :
    tokensOf offset (Run.newline :: runs) =
      Token.newline offset 0 :: (tokensOf (offset + 1) runs).map (·.behind 1) := by
  have hwidth : Text.width (Run.textOf [Run.newline]) = 1 := rfl
  have h := tokensOf_append offset [Run.newline] runs
  rw [hwidth] at h
  exact h

@[simp] theorem Token.behind_zero (k : Token) : k.behind 0 = k := rfl

theorem Token.behind_behind (k : Token) (m n : Nat) : (k.behind m).behind n = k.behind (n + m) := by
  simp [behind, Nat.add_comm, Nat.add_left_comm]

namespace Language

variable (l : Language) (state : LineState) (offset : Nat)

/-- At a line break the lexing of a text falls into two, whatever comes before it and after it. -/
theorem tokenize_append_newline (a b : Text) :
    l.tokenize (a ++ '\n' :: b) state offset =
      let first := l.tokenize a state offset
      let second := l.tokenize b first.next (offset + Text.width a + 1)
      ⟨first.tokens ++ Token.newline offset (Text.width a) ::
        second.tokens.map (·.behind (Text.width a + 1)), second.next⟩ := by
  have hnewline : (Token.newline (offset + Text.width a) 0).behind (Text.width a) =
      Token.newline offset (Text.width a) := by
    simp [Token.newline, Token.behind]
  simp only [tokenize, scan_append_newline, tokensOf_append, tokensOf_newline_cons, textOf_scan,
    List.map_cons, List.map_map, hnewline]
  congr 3
  apply List.map_congr_left
  intro k _
  exact k.behind_behind 1 (Text.width a)

/-! ## Line by line -/

/-- Lexes lines one after the other, each from the state in which the one before it ends, and puts
their tokens together with a token for the line break between each two. The first line starts at byte
`start` of the text that the lines make. -/
def tokenizeLines (state : LineState) (offset start : Nat) : List Text → Lexed
  | [] => ⟨[], state⟩
  | t :: rest =>
    let line := l.tokenize t state (offset + start)
    let tokens := line.tokens.map (·.behind start)
    match rest with
    | [] => ⟨tokens, line.next⟩
    | _ :: _ =>
      let stop := start + Text.width t
      let more := tokenizeLines line.next offset (stop + 1) rest
      ⟨tokens ++ Token.newline offset stop :: more.tokens, more.next⟩

/-- Bytes in front of the text count in the places in the text, or in the place of the text. -/
theorem tokenizeLines_behind (bytes : Nat) (ts : List Text) (start : Nat) :
    l.tokenizeLines state offset (start + bytes) ts =
      ⟨(l.tokenizeLines state (offset + bytes) start ts).tokens.map (·.behind bytes),
        (l.tokenizeLines state (offset + bytes) start ts).next⟩ := by
  induction ts generalizing state start with
  | nil => rfl
  | cons t rest ih =>
    have hplace : offset + (start + bytes) = offset + bytes + start := by omega
    have htokens : ∀ tokens : List Token,
        tokens.map (·.behind (start + bytes)) = (tokens.map (·.behind start)).map (·.behind bytes) := by
      intro tokens
      simp [Token.behind_behind, Nat.add_comm]
    cases rest with
    | nil => simp only [tokenizeLines, hplace, htokens]
    | cons u rest =>
      have hstop : start + bytes + Text.width t + 1 = start + Text.width t + 1 + bytes := by omega
      have hnewline : Token.newline offset (start + bytes + Text.width t) =
          (Token.newline (offset + bytes) (start + Text.width t)).behind bytes := by
        simp only [Token.newline, Token.behind, Token.mk.injEq]
        refine ⟨trivial, trivial, ?_, ?_, trivial⟩ <;> omega
      rw [tokenizeLines, tokenizeLines, hplace, htokens, hstop, hnewline, ih]
      simp

/-- Lines put together are lexed in one go as they are one by one; they may have line breaks of their
own. -/
theorem tokenize_joinLines {ts : List Text} (h : ts ≠ []) :
    l.tokenize (Text.joinLines ts) state offset = l.tokenizeLines state offset 0 ts := by
  induction ts generalizing state offset with
  | nil => exact absurd rfl h
  | cons t rest ih =>
    cases rest with
    | nil => simp [tokenizeLines]
    | cons u rest =>
      have hplace : offset + Text.width t + 1 = offset + (Text.width t + 1) := by omega
      -- the lines after the first one are lexed as a text of their own, and moved behind it
      have hmore :=
        l.tokenizeLines_behind (l.tokenize t state offset).next offset (Text.width t + 1) (u :: rest) 0
      rw [Nat.zero_add] at hmore
      rw [Text.joinLines_cons_cons, tokenize_append_newline, tokenizeLines]
      dsimp only
      rw [ih _ _ (by simp), hplace]
      simp only [Nat.zero_add, Nat.add_zero]
      rw [hmore]
      simp

end Language

/-- For every language, line state and place in the document: a text lexes as the parts before and
after any of its line breaks do, the second from the state that the first leaves, and as its lines do
one by one. -/
theorem lexing_resumes (l : Language) (state : LineState) (offset : Nat) :
    (∀ a b : Text,
      let first := l.tokenize a state offset
      let second := l.tokenize b first.next (offset + Text.width a + 1)
      l.tokenize (a ++ '\n' :: b) state offset =
        ⟨first.tokens ++ Token.newline offset (Text.width a) ::
          second.tokens.map (·.behind (Text.width a + 1)), second.next⟩) ∧
    ∀ t : Text, l.tokenize t state offset = l.tokenizeLines state offset 0 (Text.lines t) := by
  constructor
  · intro a b
    exact l.tokenize_append_newline state offset a b
  · intro t
    have h := l.tokenize_joinLines state offset (Text.lines_ne_nil t)
    rw [Text.joinLines_lines] at h
    exact h

end DoomLex
