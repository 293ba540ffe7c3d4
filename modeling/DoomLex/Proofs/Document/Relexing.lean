/-
How far an edit lexes: up to the first line that starts in the state in which it started before the
edit, and no further. The count that comes with an edit is the least one after which the states of the
two documents meet or the lines are at an end; the lines after it, and those before the edit, are the very
lines of the document before. What carries this is the same fact about `relex`, by induction on the lines:
each line that it passes would start in another state than the one it was lexed with.
-/
import DoomLex.Proofs.Document.Edits
import Mathlib.Order.Bounds.Basic

namespace DoomLex.Document

/-! ## Lexing on -/

/-- Lines lexed on from a state, with the count of those lexed anew: each of these would start in another
state than it was lexed with, and the line after them starts in the same one. -/
structure LexedOn (state : LineState) (lines : List Line) (out : List Line × Nat) : Prop where
  length_eq : out.1.length = lines.length
  count_le : out.2 ≤ lines.length
  kept : out.1.drop out.2 = lines.drop out.2
  passed : ∀ j < out.2, ∀ line, lines[j]? = some line → endState state (out.1.take j) ≠ line.before
  met : ∀ line, lines[out.2]? = some line → endState state (out.1.take out.2) = line.before

theorem lexedOn_relex (l : Language) (state : LineState) (lines : List Line) :
    LexedOn state lines (relex l state lines) := by
  induction lines generalizing state with
  | nil => exact ⟨rfl, Nat.le_refl 0, rfl, by simp [relex], by simp⟩
  | cons line lines ih =>
    unfold relex
    split_ifs with hs
    · -- the first line starts in the state it was lexed with: nothing is lexed
      refine ⟨rfl, Nat.zero_le _, rfl, by simp, ?_⟩
      intro line' hline'
      obtain rfl : line = line' := by simpa using hline'
      exact hs.symm
    · have h := ih (Line.lex l state line.text).after
      refine ⟨?_, ?_, ?_, ?_, ?_⟩
      · simpa using h.length_eq
      · simpa using h.count_le
      · simpa using h.kept
      · intro j hj line' hline'
        cases j with
        | zero =>
          obtain rfl : line = line' := by simpa using hline'
          exact fun he => hs he.symm
        | succ j =>
          rw [List.take_succ_cons, endState_cons]
          exact h.passed j (Nat.lt_of_succ_lt_succ hj) line' (by simpa using hline')
      · intro line' hline'
        rw [List.take_succ_cons, endState_cons]
        exact h.met line' (by simpa using hline')

/-! ## States before lines -/

theorem endState_append (state : LineState) (lines lines' : List Line) :
    endState state (lines ++ lines') = endState (endState state lines) lines' := by
  induction lines generalizing state with
  | nil => rfl
  | cons line lines ih => rw [List.cons_append, endState_cons, ih, endState_cons]

/-- Each line of a coherent document was lexed from the state before it. -/
theorem Coherent.before_eq {d : Document} (h : d.Coherent) {j : Nat} {line : Line}
    (hj : d.lines[j]? = some line) : line.before = d.stateBefore j := by
  cases j with
  | zero => exact h.first line (by rw [List.head?_eq_getElem?]; exact hj)
  | succ j =>
    obtain ⟨hlt, rfl⟩ := List.getElem?_eq_some_iff.1 hj
    have hprev : d.lines[j]? = some d.lines[j] := List.getElem?_eq_getElem (Nat.lt_of_succ_lt hlt)
    rw [List.isChain_iff_getElem.1 h.next j hlt, stateBefore, hprev]
    rfl

/-! ## Lines lexed on behind others -/

section Behind

variable {d : Document} {front : List Line} {j : Nat} {out : List Line × Nat}

theorem stateBefore_behind (l : Language) (front : List Line) {more : List Line} {c : Nat}
    (hc : c ≤ more.length) :
    (index l (front ++ more)).stateBefore (front.length + c) =
      endState (endState l.initialState front) (more.take c) := by
  have hcount : front.length + c ≤ (index l (front ++ more)).lineCount := by
    show _ ≤ (front ++ more).length
    rw [List.length_append]
    omega
  rw [stateBefore_eq_endState hcount]
  show endState l.initialState ((front ++ more).take (front.length + c)) = _
  rw [List.take_length_add_append, endState_append]

/-- Where the lines of a coherent document are lexed on behind others, the count is the least number of
lines after which the states before and after meet, or the lines are at an end. -/
theorem isLeast_count (hd : d.Coherent)
    (h : LexedOn (endState d.language.initialState front) (d.lines.drop j) out) :
    IsLeast {c | front.length + c = (index d.language (front ++ out.1)).lineCount ∨
      (index d.language (front ++ out.1)).stateBefore (front.length + c) = d.stateBefore (j + c)} out.2 := by
  have hlen := h.length_eq
  have hle := h.count_le
  have hcount : (index d.language (front ++ out.1)).lineCount = front.length + out.1.length :=
    List.length_append
  have hbefore : ∀ c line, (d.lines.drop j)[c]? = some line → line.before = d.stateBefore (j + c) := by
    intro c line hline
    rw [List.getElem?_drop] at hline
    exact hd.before_eq hline
  constructor
  · rcases Nat.lt_or_ge out.2 (d.lines.drop j).length with hlt | hge
    · right
      have hline := List.getElem?_eq_getElem hlt
      rw [stateBefore_behind d.language front (by omega), h.met _ hline, hbefore _ _ hline]
    · left
      omega
  · intro c hc
    by_contra hlt
    have hline := List.getElem?_eq_getElem (show c < (d.lines.drop j).length by omega)
    rcases hc with hend | hmeet
    · omega
    · rw [stateBefore_behind d.language front (by omega)] at hmeet
      exact h.passed c (by omega) _ hline (hmeet.trans (hbefore c _ hline).symm)

theorem getElem?_behind (front : List Line) {state : LineState} (h : LexedOn state (d.lines.drop j) out)
    {i : Nat} (hi : front.length + out.2 ≤ i) : (front ++ out.1)[i]? = d.lines[j + (i - front.length)]? := by
  obtain ⟨m, rfl⟩ := Nat.exists_eq_add_of_le hi
  have hkept := congrArg (·[m]?) h.kept
  simp only [List.getElem?_drop] at hkept
  have hm : front.length + out.2 + m - front.length = out.2 + m := by omega
  rw [List.getElem?_append_right (by omega), hm, hkept]

end Behind

/-! ## Edits -/

namespace Edit

/-- The line before the edit that a line after the edited one comes from. -/
def origin : Edit → Nat → Nat
  | replace _ _, j => j
  | insert _ _, j => j - 1
  | remove _, j => j + 1

/-- The number of lines that an edit of a document with a number of lines lexes in any case: its own one,
if it leaves one in its place. -/
def ownLines : Edit → Nat → Nat
  | replace _ _, _ | insert _ _, _ => 1
  | remove _, count => if count = 1 then 1 else 0

end Edit

/-- An edit that lexes `k` lines: no fewer would do, for only after so many the next line starts in the
state in which it started before the edit, or there is none; all other lines are those from before. -/
structure LexesLeast (d : Document) (e : Edit) (k : Nat) : Prop where
  least : IsLeast {k | e.ownLines d.lineCount ≤ k ∧
    (e.line + k = (d.edited e).lineCount ∨
      (d.edited e).stateBefore (e.line + k) = d.stateBefore (e.origin (e.line + k)))} k
  before : ∀ j < e.line, (d.edited e).lines[j]? = d.lines[j]?
  after : ∀ j, e.line + k ≤ j → (d.edited e).lines[j]? = d.lines[e.origin j]?

section Edits

variable {d : Document} {i : Nat}

/-- An edit that leaves a line in its place lexes it, and as many more lines as it takes for the states to
meet. The lines after its own are those from the line `j` on. -/
theorem lexFrom_least (hd : d.Coherent) (hi : i ≤ d.lineCount) (t : Text) {j : Nat} (origin : Nat → Nat)
    (horigin : ∀ c, origin (i + 1 + c) = j + c) :
    let out := d.lexFrom i t (d.lines.drop j)
    IsLeast {k | 1 ≤ k ∧ (i + k = out.1.lineCount ∨
      out.1.stateBefore (i + k) = d.stateBefore (origin (i + k)))} out.2 ∧
    (∀ n < i, out.1.lines[n]? = d.lines[n]?) ∧
    ∀ n, i + out.2 ≤ n → out.1.lines[n]? = d.lines[origin n]? := by
  let line := Line.lex d.language (d.stateBefore i) t
  let front := d.lines.take i ++ [line]
  let more := relex d.language line.after (d.lines.drop j)
  have htake : (d.lines.take i).length = i := List.length_take_of_le hi
  have hfront : front.length = i + 1 := by simp only [front, List.length_append, htake, List.length_singleton]
  have hout : d.lexFrom i t (d.lines.drop j) = (index d.language (front ++ more.1), more.2 + 1) := by
    simp only [front, List.append_assoc, List.singleton_append]
    rfl
  have hmore : LexedOn (endState d.language.initialState front) (d.lines.drop j) more := by
    rw [endState_append]
    exact lexedOn_relex d.language line.after (d.lines.drop j)
  obtain ⟨hmem, hleast⟩ := isLeast_count hd hmore
  rw [hout]
  refine ⟨⟨?_, ?_⟩, ?_, ?_⟩
  · have hplace : i + (more.2 + 1) = i + 1 + more.2 := by omega
    refine ⟨Nat.le_add_left .., ?_⟩
    dsimp only
    rw [hplace, horigin, ← hfront]
    exact hmem
  · rintro k ⟨hk, hmeet⟩
    obtain ⟨c, rfl⟩ := Nat.exists_eq_add_of_le' hk
    have hplace : i + (c + 1) = i + 1 + c := by omega
    rw [hplace, horigin, ← hfront] at hmeet
    exact Nat.succ_le_succ (hleast hmeet)
  · intro n hn
    show (front ++ more.1)[n]? = _
    rw [List.append_assoc, List.getElem?_append_left (by omega), List.getElem?_take_of_lt hn]
  · intro n hn
    obtain ⟨c, rfl⟩ := Nat.exists_eq_add_of_le (show i + 1 ≤ n by dsimp only at hn; omega)
    have h := getElem?_behind front hmore (i := i + 1 + c) (by dsimp only at hn; omega)
    rw [hfront, Nat.add_sub_cancel_left] at h
    rw [horigin]
    exact h

theorem lexesLeast_replace (hd : d.Coherent) (hi : i < d.lineCount) (t : Text) :
    ∃ k, d.replaceLine i t = .ok (d.edited (.replace i t), k) ∧ d.LexesLeast (.replace i t) k := by
  have hrun : d.replaceLine i t = .ok (d.lexFrom i t (d.lines.drop (i + 1))) := if_pos hi
  have hedited : d.edited (.replace i t) = (d.lexFrom i t (d.lines.drop (i + 1))).1 := by
    rw [edited, Edit.run, hrun]
  obtain ⟨hleast, hbefore, hafter⟩ :=
    lexFrom_least hd hi.le t (Edit.replace i t).origin fun c => rfl
  rw [← hedited] at hleast hbefore hafter
  exact ⟨_, by rw [hrun, hedited], hleast, hbefore, hafter⟩

theorem lexesLeast_insert (hd : d.Coherent) (hi : i ≤ d.lineCount) (t : Text) :
    ∃ k, d.insertLine i t = .ok (d.edited (.insert i t), k) ∧ d.LexesLeast (.insert i t) k := by
  have hrun : d.insertLine i t = .ok (d.lexFrom i t (d.lines.drop i)) := if_pos hi
  have hedited : d.edited (.insert i t) = (d.lexFrom i t (d.lines.drop i)).1 := by
    rw [edited, Edit.run, hrun]
  have horigin : ∀ c, (Edit.insert i t).origin (i + 1 + c) = i + c := by
    intro c
    show i + 1 + c - 1 = i + c
    omega
  obtain ⟨hleast, hbefore, hafter⟩ := lexFrom_least hd hi t (Edit.insert i t).origin horigin
  rw [← hedited] at hleast hbefore hafter
  exact ⟨_, by rw [hrun, hedited], hleast, hbefore, hafter⟩

/-- The only line is emptied, which lexes it and no other. -/
theorem lexesLeast_remove_only (hone : d.lineCount = 1) :
    d.removeLine 0 = .ok (d.edited (.remove 0), 1) ∧ d.LexesLeast (.remove 0) 1 := by
  have hrun : d.removeLine 0 = .ok (d.lexFrom 0 [] []) := by
    rw [removeLine, if_pos (by omega), if_pos hone]
  have hedited : d.edited (.remove 0) = (d.lexFrom 0 [] []).1 := by
    rw [edited, Edit.run, hrun]
  have hcount : (d.edited (.remove 0)).lineCount = 1 := by
    rw [hedited]
    rfl
  have hown : (Edit.remove 0).ownLines d.lineCount = 1 := if_pos hone
  refine ⟨by rw [hrun, hedited]; rfl, ⟨⟨hown.le, Or.inl hcount.symm⟩, ?_⟩, ?_, ?_⟩
  · rintro k ⟨hk, -⟩
    rwa [hown] at hk
  · intro n hn
    cases hn
  · -- there is no line after the only one, before as after
    intro n hn
    have hlines : d.lines.length = 1 := hone
    have hlines' : (d.edited (.remove 0)).lines.length = 1 := hcount
    have hn : 0 + 1 ≤ n := hn
    rw [List.getElem?_eq_none (by omega), List.getElem?_eq_none (by rw [Edit.origin]; omega)]

/-- Taking a line out lexes only as many of the lines after it as it takes for the states to meet. -/
theorem lexesLeast_remove (hd : d.Coherent) (hi : i < d.lineCount) (hmany : d.lineCount ≠ 1) :
    ∃ k, d.removeLine i = .ok (d.edited (.remove i), k) ∧ d.LexesLeast (.remove i) k := by
  let more := relex d.language (d.stateBefore i) (d.lines.drop (i + 1))
  have hrun : d.removeLine i = .ok (index d.language (d.lines.take i ++ more.1), more.2) := by
    rw [removeLine, if_pos hi, if_neg hmany]
  have hedited : d.edited (.remove i) = index d.language (d.lines.take i ++ more.1) := by
    rw [edited, Edit.run, hrun]
  have hown : (Edit.remove i).ownLines d.lineCount = 0 := if_neg hmany
  have htake : (d.lines.take i).length = i := List.length_take_of_le hi.le
  have hmore : LexedOn (endState d.language.initialState (d.lines.take i)) (d.lines.drop (i + 1)) more := by
    rw [← stateBefore_eq_endState hi.le]
    exact lexedOn_relex d.language (d.stateBefore i) (d.lines.drop (i + 1))
  have horigin : ∀ c, (Edit.remove i).origin (i + c) = i + 1 + c := fun c => Nat.add_right_comm i c 1
  obtain ⟨hmem, hleast⟩ := isLeast_count hd hmore
  rw [htake] at hmem hleast
  refine ⟨more.2, by rw [hrun, hedited], ⟨?_, ?_⟩, ?_, ?_⟩
  · refine ⟨hown ▸ Nat.zero_le _, ?_⟩
    rw [hedited, Edit.line, horigin]
    exact hmem
  · rintro k ⟨-, hmeet⟩
    rw [hedited, Edit.line, horigin] at hmeet
    exact hleast hmeet
  · intro n (hn : n < i)
    rw [hedited]
    show (d.lines.take i ++ more.1)[n]? = _
    rw [List.getElem?_append_left (by omega), List.getElem?_take_of_lt hn]
  · intro n (hn : i + more.2 ≤ n)
    obtain ⟨c, rfl⟩ := Nat.exists_eq_add_of_le (Nat.le_of_add_right_le hn)
    have h := getElem?_behind (d.lines.take i) hmore (i := i + c) (by omega)
    rw [htake, Nat.add_sub_cancel_left] at h
    rw [hedited, horigin]
    exact h

end Edits

theorem ofText_editedBy (l : Language) (t : Text) (edits : List Edit) :
    (ofText l t).editedBy edits = ofLines l (Edit.allOnTexts (Text.lines t) edits) :=
  editedBy_ofLines l (Text.lines t) edits

/-- Whatever edits lead from a text to a document, a further edit in range lexes the least number of lines
that it can: its own one, if it leaves one in its place, and those up to the first line that starts in the
state in which it started before, or to the end. The lines before its place and after the lines lexed are
those from before. Where the only line is taken out, one line is lexed. -/
theorem editedBy_lexes_least (l : Language) (t : Text) (edits : List Edit) (e : Edit)
    (he : e.InRange ((ofText l t).editedBy edits).lineCount) :
    let d := (ofText l t).editedBy edits
    ∃ k, e.run d = .ok (d.edited e, k) ∧ d.LexesLeast e k ∧
      ∀ i, e = .remove i → d.lineCount = 1 → k = 1 := by
  have hd : ((ofText l t).editedBy edits).Coherent := by
    rw [ofText_editedBy]
    exact coherent_ofLines l (allOnTexts_ne_nil (Text.lines_ne_nil t) edits)
  generalize (ofText l t).editedBy edits = d at he hd
  cases e with
  | replace i t =>
    obtain ⟨k, hrun, hk⟩ := lexesLeast_replace hd he t
    exact ⟨k, hrun, hk, by simp⟩
  | insert i t =>
    obtain ⟨k, hrun, hk⟩ := lexesLeast_insert hd he t
    exact ⟨k, hrun, hk, by simp⟩
  | remove i =>
    by_cases hone : d.lineCount = 1
    · obtain rfl : i = 0 := by
        have : i < d.lineCount := he
        omega
      obtain ⟨hrun, hk⟩ := lexesLeast_remove_only hone
      exact ⟨1, hrun, hk, fun _ _ _ => rfl⟩
    · obtain ⟨k, hrun, hk⟩ := lexesLeast_remove hd he hone
      exact ⟨k, hrun, hk, fun _ _ h => absurd h hone⟩

/-- A line is put into a comment, and then the line that opens the comment is taken out. -/
theorem editedBy_lexes_least_comment :
    let d := (ofText .rookScript "/*\n*/ b\nc".toList).editedBy [.insert 1 "a".toList]
    (Edit.remove 0).InRange d.lineCount ∧
      ∃ k, (Edit.remove 0).run d = .ok (d.edited (.remove 0), k) ∧ d.LexesLeast (.remove 0) k ∧
        ∀ i, Edit.remove 0 = .remove i → d.lineCount = 1 → k = 1 := by
  have he : (Edit.remove 0).InRange
      ((ofText .rookScript "/*\n*/ b\nc".toList).editedBy [.insert 1 "a".toList]).lineCount := by
    rw [ofText_editedBy, lineCount_ofLines]
    show 0 < _
    decide
  exact ⟨he, editedBy_lexes_least .rookScript _ _ _ he⟩

end DoomLex.Document
