/-
Lines and columns of bytes. A text before a byte says everything about its place: its line breaks are the lines
before, and what stands behind the last of them is the stretch whose characters the column counts. The places at
which lines start are in ascending order, the one of the line of a byte is the last that is not past it, and
whatever a search among them answers comes to that one.
-/
import DoomLex.Proofs.Document.LineStarts
import DoomLex.Proofs.Text.Cut
import Mathlib.Data.List.DropRight
import Mathlib.Data.Prod.Lex

namespace DoomLex

namespace Text

/-- The stretch of a text behind its last line break. -/
def lastLine (t : Text) : Text := t.rtakeWhile (· != '\n')

/-- A text up to its last line break, which is part of it. -/
def earlierLines (t : Text) : Text := t.rdropWhile (· != '\n')

theorem earlierLines_append_lastLine (t : Text) : earlierLines t ++ lastLine t = t :=
  List.rdropWhile_append_rtakeWhile ..

theorem newline_notMem_lastLine (t : Text) : '\n' ∉ lastLine t := by
  intro h
  exact absurd (List.mem_rtakeWhile_imp h) (by decide)

/-- Before the last line there is nothing or a line break. -/
theorem earlierLines_cases (t : Text) : earlierLines t = [] ∨ ∃ front, earlierLines t = front ++ ['\n'] := by
  by_cases hnil : earlierLines t = []
  · exact .inl hnil
  · have hlast := List.rdropWhile_last_not (· != '\n') t hnil
    refine .inr ⟨(earlierLines t).dropLast, ?_⟩
    have hnewline : (earlierLines t).getLast hnil = '\n' := by
      show (t.rdropWhile (· != '\n')).getLast hnil = '\n'
      simpa using hlast
    rw [← hnewline, List.dropLast_append_getLast]

theorem width_lastLine (t : Text) : width (earlierLines t) + width (lastLine t) = width t := by
  rw [← width_append, earlierLines_append_lastLine]

theorem lastLine_append {u : Text} (h : '\n' ∉ u) (t : Text) : lastLine (t ++ u) = lastLine t ++ u := by
  have hall : ∀ c ∈ u.reverse, (c != '\n') = true := by
    intro c hc
    exact bne_iff_ne.2 fun heq => h (heq ▸ List.mem_reverse.1 hc)
  unfold lastLine List.rtakeWhile
  rw [List.reverse_append, List.takeWhile_append_of_pos hall, List.reverse_append, List.reverse_reverse]

end Text

/-! ## Answers of a search -/

/-- What a search for a byte among ascending places may answer: where the byte is among them, or, if it is not,
between which of them it belongs. -/
inductive SearchAnswer (starts : Array Nat) (byte : Nat) : Except Nat Nat → Prop where
  | found {i : Nat} (h : starts[i]? = some byte) : SearchAnswer starts byte (.ok i)
  | missing {i : Nat} (hi : i ≤ starts.size) (hleft : ∀ j s, j < i → starts[j]? = some s → s < byte)
      (hright : ∀ j s, i ≤ j → starts[j]? = some s → byte < s) : SearchAnswer starts byte (.error i)

/-- The line that an answer of the search stands for: the one at the byte, or the one before where it belongs. -/
def answeredLine : Except Nat Nat → Nat
  | .ok i => i
  | .error i => i - 1

section Search

variable {starts : Array Nat} {byte i j s s' : Nat}

theorem lt_of_starts (h : starts.toList.Pairwise (· < ·)) (hij : i < j) (hs : starts[i]? = some s)
    (hs' : starts[j]? = some s') : s < s' := by
  obtain ⟨hi, rfl⟩ := Array.getElem?_eq_some_iff.1 hs
  obtain ⟨hj, rfl⟩ := Array.getElem?_eq_some_iff.1 hs'
  exact List.pairwise_iff_getElem.1 h i j hi hj hij

theorem exists_answer (h : starts.toList.Pairwise (· < ·)) (byte : Nat) :
    ∃ answer, SearchAnswer starts byte answer := by
  by_cases hfound : ∃ i : Nat, starts[i]? = some byte
  · obtain ⟨i, hi⟩ := hfound
    exact ⟨_, .found hi⟩
  · have hsize : bisect (fun i => starts[i]?.any (· ≤ byte)) 0 starts.size ≤ starts.size :=
      bisect_le (Nat.zero_le _)
    refine ⟨_, .missing hsize ?_ ?_⟩
    · intro j s hj hs
      have hle := (lt_bisect_iff h hs byte).1 hj
      refine lt_of_le_of_ne hle ?_
      rintro rfl
      exact hfound ⟨j, hs⟩
    · intro j s hj hs
      exact Nat.lt_of_not_le (mt (lt_bisect_iff h hs byte).2 (Nat.not_lt.2 hj))

/-- Every answer stands for the line of the byte, if the first of the lines is not past it. -/
theorem answeredLine_eq (h : starts.toList.Pairwise (· < ·)) (hfirst : starts[0]? = some 0)
    {answer : Except Nat Nat} (ha : SearchAnswer starts byte answer) :
    answeredLine answer = lastStart starts byte ∧ ∃ s, starts[answeredLine answer]? = some s := by
  cases ha with
  | @found i hi =>
    refine ⟨(lastStart_eq h hi (Nat.le_refl byte) ?_).symm, byte, hi⟩
    intro s' hs'
    exact lt_of_starts h (Nat.lt_succ_self i) hi hs'
  | @missing i hi hleft hright =>
    have hpos : 0 < i := by
      by_contra hzero
      exact absurd (hright 0 0 (by omega) hfirst) (Nat.not_lt_zero byte)
    obtain ⟨k, rfl⟩ : ∃ k, i = k + 1 := ⟨i - 1, by omega⟩
    have hk : starts[k]? = some starts[k] := Array.getElem?_eq_getElem (Nat.lt_of_succ_le hi)
    refine ⟨(lastStart_eq h hk (hleft k _ (Nat.lt_succ_self k) hk).le ?_).symm, _, hk⟩
    intro s' hs'
    exact hright (k + 1) s' (Nat.le_refl _) hs'

end Search

/-! ## Line breaks before a byte -/

namespace Source

section Breaks

variable {n : Nat} {u : Text}

theorem length_breaksFrom (n : Nat) (u : Text) : (breaksFrom n u).length = u.count '\n' := by
  induction u generalizing n with
  | nil => rfl
  | cons c u ih =>
    rw [breaksFrom, List.count_cons]
    by_cases hc : c = '\n'
    · subst hc
      simp [ih]
    · simp [hc, ih]

theorem lt_of_mem_breaksFrom {b : Nat} (h : b ∈ breaksFrom n u) : n < b := by
  induction u generalizing n with
  | nil => cases h
  | cons c u ih =>
    rw [breaksFrom] at h
    split_ifs at h
    · rcases List.mem_cons.1 h with rfl | h
      · exact Nat.lt_succ_self n
      · exact Nat.lt_of_succ_lt (ih h)
    · exact Nat.lt_of_le_of_lt (Nat.le_add_right ..) (ih h)

/-- No line starts within a character, or before it ends. -/
theorem le_of_mem_breaksFrom_cons {b : Nat} {c : Char} (h : b ∈ breaksFrom n (c :: u)) : n + c.utf8Size ≤ b := by
  rw [breaksFrom] at h
  split_ifs at h with hc
  · subst hc
    rcases List.mem_cons.1 h with rfl | h
    · exact Nat.le_refl _
    · exact (lt_of_mem_breaksFrom h).le
  · exact (lt_of_mem_breaksFrom h).le

theorem pairwise_breaksFrom (n : Nat) (u : Text) : (breaksFrom n u).Pairwise (· < ·) := by
  induction u generalizing n with
  | nil => exact .nil
  | cons c u ih =>
    rw [breaksFrom]
    split_ifs
    · exact .cons (fun _ => lt_of_mem_breaksFrom) (ih _)
    · exact ih _

end Breaks

section Starts

variable (name : String) {before after : Text} {offset : Nat}

theorem pairwise_starts (t : Text) : (ofText name t).starts.toList.Pairwise (· < ·) :=
  .cons (fun _ => lt_of_mem_breaksFrom) (pairwise_breaksFrom 0 t)

/-- The line that goes on with a text starts behind the last line break before it. -/
theorem lineStart?_of_append (before after : Text) :
    (ofText name (before ++ after)).lineStart? (before.count '\n') =
      some (Text.width before.earlierLines) := by
  have hlast : before.lastLine.count '\n' = 0 := List.count_eq_zero.2 before.newline_notMem_lastLine
  have hcount : before.count '\n' = before.earlierLines.count '\n' := by
    conv_lhs => rw [← before.earlierLines_append_lastLine, List.count_append, hlast, Nat.add_zero]
  have htext : before ++ after = before.earlierLines ++ (before.lastLine ++ after) := by
    rw [← List.append_assoc, before.earlierLines_append_lastLine]
  rw [hcount, htext]
  rcases before.earlierLines_cases with hnil | ⟨front, hfront⟩
  · rw [hnil]
    rfl
  · have hwidth : Text.width (front ++ ['\n']) = Text.width front + 1 := Text.width_append ..
    have hbreaks : (ofText name (front ++ ['\n'] ++ (before.lastLine ++ after))).starts =
        (0 :: (breaksFrom 0 front ++ (Text.width front + 1) ::
          breaksFrom (Text.width front + 1) (before.lastLine ++ after))).toArray := by
      rw [List.append_assoc, ofText, breaksFrom_append, Nat.zero_add]
      rfl
    rw [hfront, lineStart?, hbreaks, hwidth, List.getElem?_toArray, List.count_append,
      ← length_breaksFrom 0 front]
    simp

/-- The next line starts behind the next character at the earliest. -/
theorem lt_of_next_lineStart {start : Nat}
    (h : (ofText name (before ++ after)).lineStart? (before.count '\n' + 1) = some start)
    (hnext : ∀ c ∈ after.head?, offset < Text.width before + c.utf8Size) : offset < start := by
  have hmem : start ∈ breaksFrom (Text.width before) after := by
    rw [lineStart?, ofText, List.getElem?_toArray, List.getElem?_cons_succ, breaksFrom_append,
      ← length_breaksFrom 0 before, List.getElem?_append_right (Nat.le_refl _), Nat.zero_add] at h
    exact List.mem_of_getElem? h
  cases after with
  | nil => cases hmem
  | cons c after => exact (hnext c rfl).trans_le (le_of_mem_breaksFrom_cons hmem)

/-- The line of a byte is the one after the line breaks in the text before it. -/
theorem lastStart_ofText (hle : Text.width before ≤ offset)
    (hnext : ∀ c ∈ after.head?, offset < Text.width before + c.utf8Size) :
    lastStart (ofText name (before ++ after)).starts offset = before.count '\n' := by
  have hwidth := before.width_lastLine
  refine lastStart_eq (pairwise_starts name _) (lineStart?_of_append name before after) (by omega) ?_
  intro start hstart
  exact lt_of_next_lineStart name hstart hnext

theorem lineStart?_lastStart (hle : Text.width before ≤ offset)
    (hnext : ∀ c ∈ after.head?, offset < Text.width before + c.utf8Size) :
    (ofText name (before ++ after)).lineStart? (lastStart (ofText name (before ++ after)).starts offset) =
      some (Text.width before.earlierLines) := by
  rw [lastStart_ofText name hle hnext]
  exact lineStart?_of_append name before after

/-- The line and the column of the byte behind a text, and of all bytes past the end if that is the whole. -/
theorem lineColumn_of_append (hle : Text.width before ≤ offset)
    (hnext : ∀ c ∈ after.head?, offset < Text.width before + c.utf8Size)
    (hstop : min offset (Text.width (before ++ after)) = Text.width before) :
    (ofText name (before ++ after)).lineColumn offset =
      (before.count '\n' + 1, before.lastLine.length + 1) := by
  have hslice := Text.slice?_append before.earlierLines before.lastLine after
  rw [before.earlierLines_append_lastLine, before.width_lastLine, ← hstop] at hslice
  rw [← lastStart_ofText name hle hnext]
  exact lineColumn_of_slice (lineStart?_lastStart name hle hnext) hslice

/-- The line and the column of a byte within a character. -/
theorem lineColumn_inside {c : Char} (hlt : Text.width before < offset)
    (hstop : offset < Text.width before + c.utf8Size) :
    (ofText name (before ++ c :: after)).lineColumn offset =
      (before.count '\n' + 1, offset - Text.width before.earlierLines + 1) := by
  have hnext : ∀ d ∈ (c :: after).head?, offset < Text.width before + d.utf8Size := by
    intro d hd
    obtain rfl := Option.some.inj hd
    exact hstop
  have hcontent : (ofText name (before ++ c :: after)).content = before ++ c :: after := rfl
  have hmin : min offset (Text.width (before ++ c :: after)) = offset := by
    rw [Text.width_append, Text.width_cons]
    omega
  have hslice : Text.slice? (before ++ c :: after) (Text.width before.earlierLines) offset = none := by
    rw [Option.eq_none_iff_forall_ne_some]
    intro u hu
    exact Text.not_isBoundary_inside hlt hstop (Text.isBoundary_of_slice? hu)
  have hcolumn := lineColumn_of_slice_eq_none (lineStart?_lastStart name hlt.le hnext)
    (by rw [hcontent, hmin, hslice])
  rw [hcolumn, lastStart_ofText name hlt.le hnext, hcontent, hmin]

end Starts

/-! ## Whatever the search answers -/

/-- The line and the column of a byte, given what a search for it answers; none if the answer stands for no
line. -/
def lineColumnBy? (s : Source) (offset : Nat) (answer : Except Nat Nat) : Option (Nat × Nat) :=
  (s.starts[answeredLine answer]?).map fun start =>
    let stop := min offset (Text.width s.content)
    (answeredLine answer + 1, ((Text.slice? s.content start stop).elim (stop - start) List.length) + 1)

theorem lineColumnBy?_eq (name : String) (t : Text) {offset : Nat} {answer : Except Nat Nat}
    (h : SearchAnswer (ofText name t).starts offset answer) :
    (ofText name t).lineColumnBy? offset answer = some ((ofText name t).lineColumn offset) := by
  obtain ⟨hline, start, hstart⟩ := answeredLine_eq (pairwise_starts name t) rfl h
  unfold lineColumnBy?
  rw [hstart, Option.map_some]
  rw [hline] at hstart ⊢
  cases hslice : Text.slice? (ofText name t).content start (min offset (Text.width (ofText name t).content)) with
  | none => simp only [lineColumn_of_slice_eq_none hstart hslice, hslice, Option.elim_none]
  | some before => simp only [lineColumn_of_slice hstart hslice, hslice, Option.elim_some]

/-! ## The places of bytes -/

theorem lineColumn_split (name : String) (before after : Text) :
    (ofText name (before ++ after)).lineColumn (Text.width before) =
      (before.count '\n' + 1, before.lastLine.length + 1) := by
  refine lineColumn_of_append name (Nat.le_refl _) ?_ ?_
  · intro c _
    exact Nat.lt_add_of_pos_right c.utf8Size_pos
  · rw [Text.width_append]
    omega

theorem lineColumn_of_width_le (name : String) {t : Text} {offset : Nat} (h : Text.width t ≤ offset) :
    (ofText name t).lineColumn offset = (ofText name t).lineColumn (Text.width t) := by
  have hend := lineColumn_split name t []
  have hpast : (ofText name (t ++ [])).lineColumn offset = (t.count '\n' + 1, t.lastLine.length + 1) := by
    refine lineColumn_of_append name h (fun _ hc => nomatch hc) ?_
    rw [List.append_nil]
    omega
  rw [List.append_nil] at hend hpast
  rw [hend, hpast]

/-- Of two starts of a text the longer one has more line breaks, or more characters behind the last one. -/
theorem lineColumn_lt (name : String) {u v w : Text} (hv : v ≠ []) :
    toLex ((ofText name (u ++ v ++ w)).lineColumn (Text.width u)) <
      toLex ((ofText name (u ++ v ++ w)).lineColumn (Text.width (u ++ v))) := by
  have hu := lineColumn_split name u (v ++ w)
  rw [← List.append_assoc] at hu
  rw [hu, lineColumn_split name (u ++ v) w, Prod.Lex.toLex_lt_toLex, List.count_append]
  by_cases hnewline : '\n' ∈ v
  · have hcount := List.count_pos_iff.2 hnewline
    exact .inl (by omega)
  · have hcount : v.count '\n' = 0 := List.count_eq_zero.2 hnewline
    have hlength := List.length_pos_iff.2 hv
    refine .inr ⟨by simp [hcount], ?_⟩
    show u.lastLine.length + 1 < (u ++ v).lastLine.length + 1
    rw [Text.lastLine_append hnewline, List.length_append]
    omega

theorem strictMonoOn_lineColumn (name : String) (t : Text) :
    StrictMonoOn (fun offset => toLex ((ofText name t).lineColumn offset)) {offset | t.IsBoundary offset} := by
  rintro offset ⟨before, after, hbefore, rfl⟩ offset' ⟨before', after', hbefore', rfl⟩ hlt
  have hprefix : before <+: before' := by
    refine (List.prefix_or_prefix_of_prefix ⟨after, hbefore.symm⟩ ⟨after', hbefore'.symm⟩).resolve_right ?_
    rintro ⟨between, rfl⟩
    rw [Text.width_append] at hlt
    omega
  obtain ⟨between, rfl⟩ := hprefix
  have hne : between ≠ [] := by
    rintro rfl
    rw [List.append_nil] at hlt
    omega
  simp only [hbefore']
  exact lineColumn_lt name hne

/-- A byte is found again behind as many characters of its line as its column counts. -/
theorem offset_of_lineColumn (name : String) (before after : Text) :
    ∃ start front rest,
      (ofText name (before ++ after)).lineStart?
        (((ofText name (before ++ after)).lineColumn (Text.width before)).1 - 1) = some start ∧
      before ++ after = front ++ rest ∧ Text.width front = start ∧
      Text.width before = start + Text.width
        (rest.take (((ofText name (before ++ after)).lineColumn (Text.width before)).2 - 1)) := by
  rw [lineColumn_split]
  refine ⟨_, before.earlierLines, before.lastLine ++ after, lineStart?_of_append name before after, ?_, rfl, ?_⟩
  · rw [← List.append_assoc, before.earlierLines_append_lastLine]
  · rw [Nat.add_sub_cancel, List.take_left', before.width_lastLine]
    rfl

/-- A source has true lines and columns. Between two characters, the line counts the line breaks before, and the
column the characters behind the last one; later such bytes have later lines and columns, and a byte is found
again from its own. Bytes past the end have the line and the column of the end, those within a character have the
line of the character and count bytes from its start. Whatever a search among the places of the lines may
answer, the line that the answer stands for is there, and gives the same. -/
theorem columns_counted (name : String) (t : Text) :
    let s := ofText name t
    (∀ before after, t = before ++ after →
      s.lineColumn (Text.width before) = (before.count '\n' + 1, before.lastLine.length + 1)) ∧
    StrictMonoOn (fun offset => toLex (s.lineColumn offset)) {offset | t.IsBoundary offset} ∧
    (∀ offset, t.IsBoundary offset → ∃ start front rest,
      s.lineStart? ((s.lineColumn offset).1 - 1) = some start ∧ t = front ++ rest ∧ Text.width front = start ∧
        offset = start + Text.width (rest.take ((s.lineColumn offset).2 - 1))) ∧
    (∀ offset, Text.width t ≤ offset → s.lineColumn offset = s.lineColumn (Text.width t)) ∧
    (∀ before c after offset, t = before ++ c :: after → Text.width before < offset →
      offset < Text.width before + c.utf8Size →
      ∃ start, s.lineStart? (before.count '\n') = some start ∧ start ≤ Text.width before ∧
        s.lineColumn offset = (before.count '\n' + 1, offset - start + 1)) ∧
    ∀ offset, (∃ answer, SearchAnswer s.starts offset answer) ∧
      ∀ answer, SearchAnswer s.starts offset answer →
        s.lineColumnBy? offset answer = some (s.lineColumn offset) := by
  intro s
  refine ⟨?_, ?_, ?_, ?_, ?_, ?_⟩
  · rintro before after rfl
    exact lineColumn_split name before after
  · exact strictMonoOn_lineColumn name t
  · rintro offset ⟨before, after, rfl, rfl⟩
    exact offset_of_lineColumn name before after
  · intro offset hle
    exact lineColumn_of_width_le name hle
  · rintro before c after offset rfl hlt hstop
    have hwidth := before.width_lastLine
    exact ⟨_, lineStart?_of_append name before (c :: after), by omega, lineColumn_inside name hlt hstop⟩
  · intro offset
    exact ⟨exists_answer (pairwise_starts name t) offset, fun _ => lineColumnBy?_eq name t⟩

end Source

end DoomLex
