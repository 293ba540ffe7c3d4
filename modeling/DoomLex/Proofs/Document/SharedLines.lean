/-
A source and a document of one text have the same lines. The source finds them at the line breaks, slices their
texts out of the whole up to the byte before the next start, and splits the text once more to list them; the
document splits the text first and adds up the widths of what it gets. A line of the document stands in the text
at its place and ends one byte before the next one starts, or where the text ends, so that each of these ways
gives the line that the split gives.
-/
import DoomLex.Proofs.Document.Columns

namespace DoomLex

/-! ## Where lines end -/

namespace Document

/-- A line ends before the break before the next one, or with the text. -/
theorem stop_of_placedFrom {start i : Nat} {lines : List Line} {p : Nat × Line}
    (h : (placedFrom start lines)[i]? = some p) :
    ((startsFrom start lines)[i + 1]?.map (· - 1)).getD
        (start + Text.width (Text.joinLines (lines.map (·.text)))) =
      p.1 + Text.width p.2.text := by
  induction lines generalizing start i with
  | nil => cases h
  | cons line rest ih =>
    rw [placedFrom_cons] at h
    cases rest with
    | nil =>
      cases i with
      | zero =>
        obtain rfl := Option.some.inj h
        rw [List.map_singleton, Text.joinLines_singleton]
        rfl
      | succ i => cases h
    | cons next rest =>
      cases i with
      | zero =>
        obtain rfl := Option.some.inj h
        rfl
      | succ i =>
        have hbreak : Char.utf8Size '\n' = 1 := rfl
        have hwidth : start + Text.width (Text.joinLines ((line :: next :: rest).map (·.text))) =
            start + Text.width line.text + 1 + Text.width (Text.joinLines ((next :: rest).map (·.text))) := by
          rw [List.map_cons, List.map_cons, Text.joinLines_cons_cons, Text.width_append, Text.width_cons, hbreak]
          omega
        rw [hwidth]
        exact ih h

section Placed

variable {l : Language} {t : Text} {k : Nat} {p : Nat × Line}

theorem lineStart?_of_placed (h : (ofText l t).placed[k]? = some p) : (ofText l t).lineStart? k = some p.1 := by
  rw [ofText, lineStart?_index]
  exact congrArg (Option.map (·.1)) h

theorem lineText?_of_placed (h : (ofText l t).placed[k]? = some p) :
    (ofText l t).lineText? k = some p.2.text := by
  rw [lineText?, (List.getElem?_zip_eq_some.1 h).2, Option.map_some]

theorem map_text_ofText (l : Language) (t : Text) : (ofText l t).lines.map (·.text) = Text.lines t :=
  map_text_lexLines ..

theorem newline_notMem_of_placed (h : (ofText l t).placed[k]? = some p) : '\n' ∉ p.2.text := by
  have hmem := List.mem_map_of_mem (f := (·.text)) (List.mem_of_getElem? (List.getElem?_zip_eq_some.1 h).2)
  rw [map_text_ofText] at hmem
  exact Text.newline_notMem_of_mem_lines hmem

/-- A line of the document of a text stands in the text at its place. -/
theorem exists_split_of_placed (h : (ofText l t).placed[k]? = some p) :
    ∃ before after, t = before ++ p.2.text ++ after ∧ p.1 = Text.width before := by
  obtain ⟨before, after, htext, hstart⟩ := exists_split_of_placedFrom h
  rw [map_text_lexLines, Text.joinLines_lines] at htext
  exact ⟨before, after, htext, by rw [hstart, Nat.zero_add]⟩

end Placed

end Document

namespace Source

variable (name : String) (l : Language) (t : Text)

theorem lineCount_ofText : (ofText name t).lineCount = t.count '\n' + 1 := by
  rw [lineCount, ofText, List.size_toArray, List.length_cons, length_breaksFrom]

theorem lineCount_eq : (ofText name t).lineCount = (Document.ofText l t).lineCount := by
  rw [lineCount, starts_ofText name l t, List.size_toArray]
  exact Document.length_startsFrom ..

theorem lineStart?_ofText (k : Nat) : (ofText name t).lineStart? k = (Document.ofText l t).lineStart? k := by
  rw [lineStart?, starts_ofText name l t, List.getElem?_toArray]
  rfl

/-- The lines of a source are those of a document, each with its text. -/
theorem lines_ofText :
    (ofText name t).lines = (Document.ofText l t).placed.map fun p => (p.1, p.2.text) := by
  have hcontent : (ofText name t).content = t := rfl
  unfold lines Document.placed
  rw [starts_ofText name l t, hcontent, ← Document.map_text_ofText l t, List.zip_map_right]
  rfl

theorem extract_append (before line after : Text) :
    (ofText name (before ++ line ++ after)).extract (Text.width before) (Text.width before + Text.width line) =
      .ok line := by
  have hstop : ¬ Text.width before + Text.width line > Text.width (before ++ line ++ after) := by
    rw [Text.width_append, Text.width_append]
    omega
  have hslice := Text.slice?_append before line after
  unfold extract
  rw [if_neg (Nat.not_lt.2 (Nat.le_add_right ..)), ofText, if_neg hstop, hslice]

/-- A line that a document has at a place is what a source has as this line. -/
theorem lineAt_of_placed {k : Nat} {p : Nat × Line} (h : (Document.ofText l t).placed[k]? = some p) :
    (ofText name t).lineAt (k + 1) = .ok p.2.text := by
  obtain ⟨before, after, htext, hstart⟩ := Document.exists_split_of_placed h
  have hfirst : (ofText name t).lineStart? k = some p.1 := by
    rw [lineStart?_ofText name l t, Document.lineStart?_of_placed h]
  have hstop := Document.stop_of_placedFrom h
  rw [Document.map_text_lexLines, Text.joinLines_lines, Nat.zero_add] at hstop
  have hlast : (((ofText name t).lineStart? (k + 1)).map (· - 1)).getD (Text.width t) =
      p.1 + Text.width p.2.text := by
    rw [lineStart?_ofText name l t, ← hstop]
    rfl
  have hslice := Text.slice?_append before p.2.text after
  rw [← htext, ← hstart] at hslice
  have hcontent : (ofText name t).content = t := rfl
  simp only [lineAt, Nat.add_one_ne_zero, if_false, Nat.add_sub_cancel, hfirst, hcontent, hlast, hslice]

/-- A line number is wrong if it is none of those from one to the count. -/
theorem lineAt_eq_error {n : Nat} (h : n = 0 ∨ (ofText name t).lineCount < n) :
    (ofText name t).lineAt n = .error (.invalidLine n (ofText name t).lineCount) := by
  unfold lineAt
  rcases h with rfl | h
  · rfl
  · have hnone : (ofText name t).lineStart? (n - 1) = none := by
      rw [lineStart?, Array.getElem?_eq_none_iff]
      exact Nat.le_sub_one_of_lt h
    rw [if_neg (by omega), hnone]

/-- A source and a document of one text have the same lines: as many, at the same places, with the same texts,
which the source also has from slicing and in its list. No line has a line break in it, and joined they are the
text. A line that does not exist is an error that says so, and no other error occurs. -/
theorem lines_shared (name : String) (l : Language) (t : Text) :
    let s := ofText name t
    let d := Document.ofText l t
    s.lineCount = t.count '\n' + 1 ∧ d.lineCount = t.count '\n' + 1 ∧
    (∀ k < s.lineCount, ∃ start line,
      s.lineStart? k = some start ∧ d.lineStart? k = some start ∧
      s.lineAt (k + 1) = .ok line ∧ d.lineText? k = some line ∧
      s.lines[k]? = some (start, line) ∧ s.extract start (start + Text.width line) = .ok line ∧
      '\n' ∉ line) ∧
    s.lines.length = s.lineCount ∧
    Text.joinLines (s.lines.map (·.2)) = t ∧
    ∀ n, n = 0 ∨ s.lineCount < n → s.lineAt n = .error (.invalidLine n s.lineCount) := by
  intro s d
  have hcount : s.lineCount = t.count '\n' + 1 := lineCount_ofText name t
  have hsame : s.lineCount = d.lineCount := lineCount_eq name l t
  have hlines : s.lines = d.placed.map fun p => (p.1, p.2.text) := lines_ofText name l t
  have hplaced : d.placed.length = d.lineCount := Document.length_placed_index ..
  refine ⟨hcount, hsame ▸ hcount, ?_, ?_, ?_, ?_⟩
  · intro k hk
    have hp : d.placed[k]? = some d.placed[k] := List.getElem?_eq_getElem (by omega)
    obtain ⟨before, after, htext, hstart⟩ := Document.exists_split_of_placed hp
    have hextract := extract_append name before d.placed[k].2.text after
    rw [← htext, ← hstart] at hextract
    have hfirst := Document.lineStart?_of_placed hp
    have hline : s.lines[k]? = some (d.placed[k].1, d.placed[k].2.text) := by
      rw [hlines, List.getElem?_map, hp]
      rfl
    refine ⟨d.placed[k].1, d.placed[k].2.text, ?_, hfirst, lineAt_of_placed name l t hp,
      Document.lineText?_of_placed hp, hline, hextract, Document.newline_notMem_of_placed hp⟩
    exact (lineStart?_ofText name l t k).trans hfirst
  · rw [hlines, List.length_map, hplaced, hsame]
  · have htexts : d.placed.map (·.2) = d.lines := Document.map_snd_placed_index ..
    have hjoined : s.lines.map (·.2) = Text.lines t := by
      rw [hlines, List.map_map, ← Document.map_text_ofText l t, ← htexts, List.map_map]
      rfl
    rw [hjoined, Text.joinLines_lines]
  · intro n hn
    exact lineAt_eq_error name t hn

end Source

end DoomLex
