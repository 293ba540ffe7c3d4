/-
Where lines start. The places at which the lines of a document start are in ascending order, each behind the
text of the line before it and one byte for the line break, so that the search by halving finds the line that
holds a byte. A source counts its lines at the line breaks of its text, a document by the widths of its lines:
for the lines of one text the two come to the same places.
-/
import DoomLex.Proofs.Document.OnePass
import DoomLex.Proofs.Lexing.Lines
import DoomLex.Source

namespace DoomLex

/-! ## Search in ascending places -/

/-- Where the search for a byte among ascending places ends: at the last place that is not past it. -/
def lastStart (starts : Array Nat) (byte : Nat) : Nat :=
  bisect (fun i => starts[i]?.any (· ≤ byte)) 0 starts.size - 1

section LastStart

variable {starts : Array Nat} {i s byte : Nat}

/-- The places left of that at which the search stops are those that are not past the byte. -/
theorem lt_bisect_iff (h : starts.toList.Pairwise (· < ·)) (hs : starts[i]? = some s) (byte : Nat) :
    i < bisect (fun i => starts[i]?.any (· ≤ byte)) 0 starts.size ↔ s ≤ byte := by
  let reached : Nat → Bool := fun i => starts[i]?.any (· ≤ byte)
  have hreached : ∀ {i s}, starts[i]? = some s → (reached i = true ↔ s ≤ byte) := by
    intro i s hs
    simp only [reached, hs, Option.any_some, decide_eq_true_eq]
  have hmono : ∀ i j, i ≤ j → reached j = true → reached i = true := by
    intro i j hij hj
    obtain ⟨s', hs', -⟩ := (Option.any_eq_true ..).1 hj
    have hle := (hreached hs').1 hj
    obtain ⟨hjsize, rfl⟩ := Array.getElem?_eq_some_iff.1 hs'
    rcases Nat.eq_or_lt_of_le hij with rfl | hlt
    · exact hj
    · have hisize : i < starts.size := Nat.lt_trans hlt hjsize
      have hless : starts[i] < starts[j] := List.pairwise_iff_getElem.1 h i j hisize hjsize hlt
      exact (hreached (Array.getElem?_eq_getElem hisize)).2 (hless.le.trans hle)
  obtain ⟨hleft, hright⟩ := bisect_spec (Nat.zero_le starts.size) hmono
  have hsize : i < starts.size := (Array.getElem?_eq_some_iff.1 hs).1
  constructor
  · intro hi
    exact (hreached hs).1 (hleft i (Nat.zero_le i) hi)
  · intro hle
    by_contra hi
    have hfails := hright i (Nat.le_of_not_lt hi) hsize
    rw [(hreached hs).2 hle] at hfails
    cases hfails

theorem lastStart_eq (h : starts.toList.Pairwise (· < ·)) (hs : starts[i]? = some s) (hle : s ≤ byte)
    (hnext : ∀ s', starts[i + 1]? = some s' → byte < s') : lastStart starts byte = i := by
  have hleft := (lt_bisect_iff h hs byte).2 hle
  have hright : bisect (fun i => starts[i]?.any (· ≤ byte)) 0 starts.size ≤ i + 1 := by
    cases hs' : starts[i + 1]? with
    | none => exact (bisect_le (Nat.zero_le _)).trans (Array.getElem?_eq_none_iff.1 hs')
    | some s' =>
      have hlt := mt (lt_bisect_iff h hs' byte).1 (Nat.not_le.2 (hnext s' hs'))
      omega
  unfold lastStart
  omega

/-- The next place after one that the search passes is not past the byte either. -/
theorem exists_le_of_lt_lastStart (h : starts.toList.Pairwise (· < ·)) (hi : i < lastStart starts byte) :
    ∃ s, starts[i + 1]? = some s ∧ s ≤ byte := by
  have hlt : i + 1 < bisect (fun i => starts[i]?.any (· ≤ byte)) 0 starts.size := by
    unfold lastStart at hi
    omega
  have hsize := Nat.lt_of_lt_of_le hlt (bisect_le (Nat.zero_le _))
  have hs := Array.getElem?_eq_getElem hsize
  exact ⟨_, hs, (lt_bisect_iff h hs byte).1 hlt⟩

end LastStart

/-! ## Lines and their places -/

namespace Document

/-- Lines with the bytes at which they start, the first one at the given byte. -/
def placedFrom (start : Nat) (lines : List Line) : List (Nat × Line) := (startsFrom start lines).zip lines

theorem placed_index (l : Language) (lines : List Line) : (index l lines).placed = placedFrom 0 lines := rfl

theorem placedFrom_cons (start : Nat) (line : Line) (lines : List Line) :
    placedFrom start (line :: lines) = (start, line) :: placedFrom (start + Text.width line.text + 1) lines :=
  rfl

theorem map_fst_placedFrom (start : Nat) (lines : List Line) :
    (placedFrom start lines).map (·.1) = startsFrom start lines :=
  List.map_fst_zip (length_startsFrom start lines).le

theorem le_of_mem_placedFrom {start : Nat} {lines : List Line} {p : Nat × Line}
    (h : p ∈ placedFrom start lines) : start ≤ p.1 := by
  induction lines generalizing start with
  | nil => cases h
  | cons line lines ih =>
    rw [placedFrom_cons] at h
    rcases List.mem_cons.1 h with rfl | h
    · exact Nat.le_refl _
    · have := ih h
      omega

/-- Each line starts behind the line break after the ones before it. -/
theorem pairwise_placedFrom (start : Nat) (lines : List Line) :
    (placedFrom start lines).Pairwise fun p q => p.1 + Text.width p.2.text < q.1 := by
  induction lines generalizing start with
  | nil => exact .nil
  | cons line lines ih =>
    rw [placedFrom_cons]
    refine .cons ?_ (ih _)
    intro q hq
    exact le_of_mem_placedFrom hq

theorem pairwise_startsFrom (start : Nat) (lines : List Line) : (startsFrom start lines).Pairwise (· < ·) := by
  rw [← map_fst_placedFrom, List.pairwise_map]
  refine (pairwise_placedFrom start lines).imp fun {p q} h => ?_
  omega

/-- A line stands in the text of all lines behind the text before it. -/
theorem exists_split_of_placedFrom {start i : Nat} {lines : List Line} {p : Nat × Line}
    (h : (placedFrom start lines)[i]? = some p) :
    ∃ before after, Text.joinLines (lines.map (·.text)) = before ++ p.2.text ++ after ∧
      p.1 = start + Text.width before := by
  induction lines generalizing start i with
  | nil => cases h
  | cons line rest ih =>
    rw [placedFrom_cons] at h
    cases i with
    | zero =>
      obtain rfl := Option.some.inj h
      cases rest with
      | nil => exact ⟨[], [], by simp, rfl⟩
      | cons next rest => exact ⟨[], _, Text.joinLines_cons_cons .., rfl⟩
    | succ i =>
      cases rest with
      | nil => cases h
      | cons next rest =>
        obtain ⟨before, after, htext, hstart⟩ := ih h
        refine ⟨line.text ++ '\n' :: before, after, ?_, ?_⟩
        · rw [List.map_cons, List.map_cons, Text.joinLines_cons_cons, ← List.map_cons, htext]
          simp
        · have hbreak : Char.utf8Size '\n' = 1 := rfl
          rw [hstart, Text.width_append, Text.width_cons, hbreak]
          omega

theorem getElem?_toArray_startsFrom (start : Nat) (lines : List Line) (i : Nat) :
    (startsFrom start lines).toArray[i]? = ((placedFrom start lines)[i]?).map (·.1) := by
  rw [List.getElem?_toArray, ← map_fst_placedFrom, List.getElem?_map]

theorem lt_of_getElem?_placedFrom {start i j : Nat} {lines : List Line} {p q : Nat × Line} (hij : i < j)
    (hp : (placedFrom start lines)[i]? = some p) (hq : (placedFrom start lines)[j]? = some q) :
    p.1 + Text.width p.2.text < q.1 := by
  obtain ⟨hi, rfl⟩ := List.getElem?_eq_some_iff.1 hp
  obtain ⟨hj, rfl⟩ := List.getElem?_eq_some_iff.1 hq
  exact List.pairwise_iff_getElem.1 (pairwise_placedFrom start lines) i j hi hj hij

/-- The search for a byte finds the line that holds it, or that it is the end of. -/
theorem lastStart_of_placedFrom {start i byte : Nat} {lines : List Line} {p : Nat × Line}
    (h : (placedFrom start lines)[i]? = some p) (hle : p.1 ≤ byte) (hstop : byte ≤ p.1 + Text.width p.2.text) :
    lastStart (startsFrom start lines).toArray byte = i := by
  have hp : (startsFrom start lines).toArray[i]? = some p.1 := by
    rw [getElem?_toArray_startsFrom, h]
    rfl
  refine lastStart_eq (pairwise_startsFrom start lines) hp hle ?_
  intro s hs
  rw [getElem?_toArray_startsFrom] at hs
  obtain ⟨q, hq, rfl⟩ := Option.map_eq_some_iff.1 hs
  have := lt_of_getElem?_placedFrom (Nat.lt_succ_self i) h hq
  omega

/-- The lines before the one that the search for a byte finds end before the byte. -/
theorem lt_of_lt_lastStart {start i byte : Nat} {lines : List Line} {p : Nat × Line}
    (h : (placedFrom start lines)[i]? = some p) (hi : i < lastStart (startsFrom start lines).toArray byte) :
    p.1 + Text.width p.2.text < byte := by
  obtain ⟨s, hs, hle⟩ := exists_le_of_lt_lastStart (pairwise_startsFrom start lines) hi
  rw [getElem?_toArray_startsFrom] at hs
  obtain ⟨q, hq, rfl⟩ := Option.map_eq_some_iff.1 hs
  have := lt_of_getElem?_placedFrom (Nat.lt_succ_self i) h hq
  omega

end Document

/-! ## Line breaks -/

namespace Source

theorem breaksFrom_append (offset : Nat) (u t : Text) :
    breaksFrom offset (u ++ t) = breaksFrom offset u ++ breaksFrom (offset + Text.width u) t := by
  induction u generalizing offset with
  | nil => rfl
  | cons c u ih =>
    have hnewline : Char.utf8Size '\n' = 1 := rfl
    rw [List.cons_append, breaksFrom, breaksFrom, Text.width_cons, ← Nat.add_assoc]
    split_ifs with hc
    · subst hc
      rw [ih, hnewline]
      rfl
    · exact ih _

theorem breaksFrom_of_notMem {u : Text} (hu : '\n' ∉ u) (offset : Nat) : breaksFrom offset u = [] := by
  induction u generalizing offset with
  | nil => rfl
  | cons c u ih =>
    rw [List.mem_cons, not_or] at hu
    rw [breaksFrom, if_neg (Ne.symm hu.1), ih hu.2]

theorem breaksFrom_joinLines {lines : List Line} (hne : lines ≠ []) (h : ∀ line ∈ lines, '\n' ∉ line.text)
    (offset : Nat) :
    offset :: breaksFrom offset (Text.joinLines (lines.map (·.text))) = Document.startsFrom offset lines := by
  induction lines generalizing offset with
  | nil => exact absurd rfl hne
  | cons line rest ih =>
    obtain ⟨hline, hrest⟩ := List.forall_mem_cons.1 h
    rw [Document.startsFrom]
    cases rest with
    | nil =>
      rw [List.map_singleton, Text.joinLines_singleton, breaksFrom_of_notMem hline]
      rfl
    | cons next rest =>
      rw [← ih (List.cons_ne_nil _ _) hrest, List.map_cons, List.map_cons, Text.joinLines_cons_cons,
        breaksFrom_append, breaksFrom_of_notMem hline, List.nil_append, breaksFrom, if_pos rfl]

/-- A source and a document of one text have their lines at the same places. -/
theorem starts_ofText (name : String) (l : Language) (t : Text) :
    (ofText name t).starts = (Document.ofText l t).starts.toArray := by
  have hne : Document.lexLines l l.initialState (Text.lines t) ≠ [] := by
    rw [← List.length_pos_iff, Document.length_lexLines]
    exact List.length_pos_iff.2 (Text.lines_ne_nil t)
  have hlines : ∀ line ∈ Document.lexLines l l.initialState (Text.lines t), '\n' ∉ line.text := by
    intro line hline
    have hmem := List.mem_map_of_mem (f := (·.text)) hline
    rw [Document.map_text_lexLines] at hmem
    exact Text.newline_notMem_of_mem_lines hmem
  have hstarts := breaksFrom_joinLines hne hlines 0
  rw [Document.map_text_lexLines, Text.joinLines_lines] at hstarts
  exact congrArg List.toArray hstarts

/-- The column of a byte counts the characters between the start of its line and the byte. -/
theorem lineColumn_of_slice {s : Source} {offset start : Nat} {before : Text}
    (hstart : s.starts[lastStart s.starts offset]? = some start)
    (hslice : Text.slice? s.content start (min offset (Text.width s.content)) = some before) :
    s.lineColumn offset = (lastStart s.starts offset + 1, before.length + 1) := by
  have hline : bisect (fun i => s.starts[i]?.any (· ≤ offset)) 0 s.starts.size - 1 =
      lastStart s.starts offset := rfl
  simp only [lineColumn, hline, hstart, Option.getD_some, hslice]

/-- Where there is no stretch from the start of the line up to the byte, the column counts bytes. -/
theorem lineColumn_of_slice_eq_none {s : Source} {offset start : Nat}
    (hstart : s.starts[lastStart s.starts offset]? = some start)
    (hslice : Text.slice? s.content start (min offset (Text.width s.content)) = none) :
    s.lineColumn offset =
      (lastStart s.starts offset + 1, min offset (Text.width s.content) - start + 1) := by
  have hline : bisect (fun i => s.starts[i]?.any (· ≤ offset)) 0 s.starts.size - 1 =
      lastStart s.starts offset := rfl
  simp only [lineColumn, hline, hstart, Option.getD_some, hslice]

end Source

end DoomLex
