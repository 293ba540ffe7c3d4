/-
Tokens in a range of a document: the search is an exact filter. It passes over the lines before the last one
that starts at or before the range, and over those that start behind it, but none of these has a token in the
range. An empty range stands for the one byte at its start, which one token of the whole text holds, if the text
has it; that token belongs to a line unless it is the line break between two of them.
-/
import DoomLex.Proofs.Document.LineStarts
import Mathlib.Data.List.Flatten

namespace DoomLex

/-! ## Tokens and bytes -/

namespace Token

/-- The token has the byte of the document. -/
def Holds (k : Token) (byte : Nat) : Prop := k.offset ≤ byte ∧ byte < k.offsetStop

/-- The token has one of the bytes from `start` up to `stop` of the document. -/
def Meets (k : Token) (start stop : Nat) : Prop := ∃ byte, k.Holds byte ∧ start ≤ byte ∧ byte < stop

variable {k : Token} {start stop byte : Nat}

instance : Decidable (k.Holds byte) := inferInstanceAs (Decidable (_ ∧ _))

theorem meets_iff_max_lt_min : k.Meets start stop ↔ max k.offset start < min k.offsetStop stop := by
  unfold Meets Holds
  constructor
  · rintro ⟨byte, ⟨hoffset, hstop⟩, hle, hlt⟩
    omega
  · intro h
    exact ⟨max k.offset start, by omega, by omega, by omega⟩

instance : Decidable (k.Meets start stop) := decidable_of_iff _ meets_iff_max_lt_min.symm

theorem meets_iff (hk : k.text ≠ []) (h : start < stop) :
    k.Meets start stop ↔ k.offset < stop ∧ start < k.offsetStop := by
  have hwidth : k.offset < k.offsetStop := Nat.lt_add_of_pos_right (Text.width_pos hk)
  rw [meets_iff_max_lt_min]
  omega

theorem meets_succ_iff : k.Meets byte (byte + 1) ↔ k.Holds byte := by
  unfold Meets Holds
  constructor
  · rintro ⟨byte', ⟨hoffset, hstop⟩, hle, hlt⟩
    omega
  · intro h
    exact ⟨byte, h, Nat.le_refl byte, Nat.lt_succ_self byte⟩

end Token

/-! ## One text -/

theorem countP_holds_layOut (offset start : Nat) (ps : List (Kind × Piece)) (byte : Nat) :
    (layOut offset start ps).countP (·.Holds byte) =
      if offset + start ≤ byte ∧ byte < offset + start + Text.width (stretchText ps) then 1 else 0 := by
  induction ps generalizing start with
  | nil =>
    rw [stretchText_nil, Text.width_nil, if_neg (by omega)]
    rfl
  | cons p ps ih =>
    have hfirst : Token.Holds ⟨p.1, p.2.text, start, offset + start, p.2.link⟩ byte ↔
        offset + start ≤ byte ∧ byte < offset + start + Text.width p.2.text := Iff.rfl
    rw [layOut, List.countP_cons, ih, stretchText_cons, Text.width_append]
    simp only [hfirst, decide_eq_true_eq]
    split_ifs <;> omega

theorem pairwise_layOut (offset start : Nat) {ps : List (Kind × Piece)} (hne : ∀ p ∈ ps, p.2.text ≠ []) :
    (layOut offset start ps).Pairwise fun a b => a.offset < b.offset := by
  induction ps generalizing start with
  | nil => exact .nil
  | cons p ps ih =>
    obtain ⟨hp, hps⟩ := List.forall_mem_cons.1 hne
    refine .cons ?_ (ih _ hps)
    intro k hk
    obtain ⟨before, after, -, hstart, hoffset⟩ := split_of_mem_layOut offset _ ps hk
    have hwidth := Text.width_pos hp
    show offset + start < k.offset
    omega

namespace Language

variable (l : Language) (t : Text) (state : LineState) (offset : Nat)

theorem tokens_tokenize :
    (l.tokenize t state offset).tokens = layOut offset 0 (stretches (l.scan state t).1) := rfl

theorem stretchText_scan : stretchText (stretches (l.scan state t).1) = t := by
  rw [stretchText_stretches, l.textOf_scan]

/-- Each byte of a text belongs to one of its tokens. -/
theorem countP_holds_tokenize (byte : Nat) :
    (l.tokenize t state offset).tokens.countP (·.Holds byte) =
      if offset ≤ byte ∧ byte < offset + Text.width t then 1 else 0 := by
  rw [tokens_tokenize, countP_holds_layOut, stretchText_scan, Nat.add_zero]

theorem pairwise_tokenize :
    (l.tokenize t state offset).tokens.Pairwise fun a b => a.offset < b.offset :=
  pairwise_layOut offset 0 fun _ hp => ne_nil_of_mem_stretches (fun _ hr => ne_nil_of_mem_scan hr) hp

variable {l t state offset}

theorem split_of_mem_tokenize {k : Token} (h : k ∈ (l.tokenize t state offset).tokens) :
    ∃ before after, t = before ++ k.text ++ after ∧ k.start = Text.width before ∧
      k.offset = offset + Text.width before := by
  rw [tokens_tokenize] at h
  obtain ⟨before, after, htext, hstart, hoffset⟩ := split_of_mem_layOut offset 0 _ h
  rw [stretchText_scan] at htext
  exact ⟨before, after, htext, by omega, by omega⟩

end Language

namespace Document

/-! ## The tokens of a document -/

/-- The tokens of all lines, one line after the other, at their places in the document. -/
def tokens (d : Document) : List Token := (List.range d.lineCount).flatMap fun i => (d.lineTokens? i).getD []

/-- The tokens of a line at its place. -/
def placedTokens (p : Nat × Line) : List Token := p.2.tokens.map (·.shift p.1)

theorem flatMap_range_getElem? {α β : Type} (xs : List α) (f : α → List β) :
    ((List.range xs.length).flatMap fun i => ((xs[i]?).map f).getD []) = xs.flatMap f := by
  induction xs with
  | nil => rfl
  | cons x xs ih =>
    rw [List.length_cons, List.range_succ_eq_map, List.flatMap_cons, List.flatMap_map, List.flatMap_cons,
      ← ih]
    simp

theorem tokens_index (l : Language) (lines : List Line) :
    (index l lines).tokens = (placedFrom 0 lines).flatMap placedTokens := by
  rw [← flatMap_range_getElem?, ← placed_index l, length_placed_index]
  rfl

section OfLines

variable (l : Language) (ts : List Text)

/-- A token of a line at its place stands behind the text before it. -/
theorem split_of_mem_placedTokens {start : Nat} {state : LineState} {p : Nat × Line} {k : Token}
    (hp : p ∈ placedFrom start (lexLines l state ts)) (hk : k ∈ placedTokens p) :
    k.text ≠ [] ∧ ∃ before after, p.2.text = before ++ k.text ++ after ∧ k.start = Text.width before ∧
      k.offset = p.1 + Text.width before := by
  have hlex := eq_lex_of_mem_lexLines (List.of_mem_zip hp).2
  obtain ⟨k₀, hk₀, rfl⟩ := List.mem_map.1 hk
  rw [hlex] at hk₀
  have hne := ((l.covers_tokenize p.2.text p.2.before 0).nonempty k₀ hk₀).1
  obtain ⟨before, after, htext, hstart, hoffset⟩ := Language.split_of_mem_tokenize hk₀
  refine ⟨hne, before, after, htext, hstart, ?_⟩
  simp only [Token.shift]
  omega

theorem bounds_of_mem_placedTokens {start : Nat} {state : LineState} {p : Nat × Line} {k : Token}
    (hp : p ∈ placedFrom start (lexLines l state ts)) (hk : k ∈ placedTokens p) :
    p.1 ≤ k.offset ∧ k.offsetStop ≤ p.1 + Text.width p.2.text := by
  obtain ⟨-, before, after, htext, -, hoffset⟩ := split_of_mem_placedTokens l ts hp hk
  rw [htext, Text.width_append, Text.width_append, Token.offsetStop, Token.width]
  constructor <;> omega

/-- The lines at which the search stops start behind the range. -/
theorem le_of_mem_dropWhile {stop n : Nat} {lines : List Line} {p : Nat × Line}
    (hp : p ∈ ((placedFrom 0 lines).drop n).dropWhile (·.1 < stop)) : stop ≤ p.1 := by
  -- the first of them does, and each line starts behind the one before it
  have hpairwise := (pairwise_placedFrom 0 lines).sublist
    ((List.dropWhile_sublist (·.1 < stop)).trans (List.drop_sublist n _))
  have hhead := List.head?_dropWhile_not (·.1 < stop) ((placedFrom 0 lines).drop n)
  cases hdrop : ((placedFrom 0 lines).drop n).dropWhile (·.1 < stop) with
  | nil =>
    rw [hdrop] at hp
    cases hp
  | cons q rest =>
    rw [hdrop] at hp hpairwise hhead
    have hq : stop ≤ q.1 := by simpa using hhead
    rcases List.mem_cons.1 hp with rfl | hp
    · exact hq
    · have := (List.pairwise_cons.1 hpairwise).1 p hp
      omega

theorem flatMap_takeWhile_drop {α β : Type} {f : α → List β} {xs : List α} {n : Nat} {p : α → Bool}
    (hbefore : ∀ x ∈ xs.take n, f x = []) (hafter : ∀ x ∈ (xs.drop n).dropWhile p, f x = []) :
    ((xs.drop n).takeWhile p).flatMap f = xs.flatMap f := by
  have hsplit : xs = xs.take n ++ ((xs.drop n).takeWhile p ++ (xs.drop n).dropWhile p) := by
    rw [List.takeWhile_append_dropWhile, List.take_append_drop]
  conv_rhs => rw [hsplit]
  rw [List.flatMap_append, List.flatMap_append, List.flatMap_eq_nil_iff.2 hbefore,
    List.flatMap_eq_nil_iff.2 hafter, List.nil_append, List.append_nil]

theorem filter_meets_eq_nil {start stop : Nat} {p : Nat × Line}
    (hp : p ∈ placedFrom 0 (lexLines l l.initialState ts))
    (h : p.1 + Text.width p.2.text < start ∨ stop ≤ p.1) :
    (placedTokens p).filter (·.Meets start stop) = [] := by
  refine List.filter_eq_nil_iff.2 fun k hk hmeets => ?_
  obtain ⟨byte, ⟨hoffset, hlt⟩, hstart, hstop⟩ := of_decide_eq_true hmeets
  have hbounds := bounds_of_mem_placedTokens l ts hp hk
  omega

/-- The search finds all tokens that meet the range, for those of the lines that it leaves out do not. -/
theorem tokensInRange_ofLines (start stop : Nat) :
    (ofLines l ts).tokensInRange start stop =
      (ofLines l ts).tokens.filter (·.Meets start (max stop (start + 1))) := by
  let lines := lexLines l l.initialState ts
  let first := lastStart (startsFrom 0 lines).toArray start
  have hsearch : (ofLines l ts).tokensInRange start stop =
      (((placedFrom 0 lines).drop first).takeWhile (·.1 < max stop (start + 1))).flatMap fun p =>
        (placedTokens p).filter fun k => k.offset < max stop (start + 1) && start < k.offsetStop := rfl
  have hlt : start < max stop (start + 1) := by omega
  rw [hsearch]
  generalize max stop (start + 1) = stop at hlt
  have hfilter : ∀ p ∈ ((placedFrom 0 lines).drop first).takeWhile (·.1 < stop),
      (placedTokens p).filter (fun k => k.offset < stop && start < k.offsetStop) =
        (placedTokens p).filter (·.Meets start stop) := by
    intro p hp
    have hmem := List.mem_of_mem_drop ((List.takeWhile_sublist _).mem hp)
    refine List.filter_congr fun k hk => ?_
    simp [Token.meets_iff (split_of_mem_placedTokens l ts hmem hk).1 hlt]
  have hbefore : ∀ p ∈ (placedFrom 0 lines).take first, (placedTokens p).filter (·.Meets start stop) = [] := by
    intro p hp
    obtain ⟨i, hi, rfl⟩ := List.mem_take_iff_getElem.1 hp
    have hi' : i < first := Nat.lt_of_lt_of_le hi (Nat.min_le_left ..)
    have hline := lt_of_lt_lastStart (List.getElem?_eq_getElem (by omega)) hi'
    exact filter_meets_eq_nil l ts (List.mem_of_mem_take hp) (.inl hline)
  have hafter : ∀ p ∈ ((placedFrom 0 lines).drop first).dropWhile (·.1 < stop),
      (placedTokens p).filter (·.Meets start stop) = [] := by
    intro p hp
    have hmem := List.mem_of_mem_drop ((List.dropWhile_sublist _).mem hp)
    exact filter_meets_eq_nil l ts hmem (.inr (le_of_mem_dropWhile hp))
  rw [List.flatMap_congr hfilter, flatMap_takeWhile_drop hbefore hafter, ofLines, tokens_index,
    List.filter_flatMap]

/-! ## One byte -/

theorem countP_flatMap_append {α β : Type} (p : β → Bool) (f g : α → List β) (xs : List α) :
    (xs.flatMap fun x => f x ++ g x).countP p = (xs.flatMap f).countP p + (xs.flatMap g).countP p := by
  induction xs with
  | nil => rfl
  | cons x xs ih =>
    simp only [List.flatMap_cons, List.countP_append, ih]
    omega

variable {ts}

theorem tokens_sublist_listing (d : Document) : d.tokens.Sublist d.listing :=
  List.Sublist.flatMap_right _ fun _ _ => List.sublist_append_right ..

theorem pairwise_listing (h : ts ≠ []) : (ofLines l ts).listing.Pairwise fun a b => a.offset < b.offset := by
  have hpairwise := l.pairwise_tokenize (Text.joinLines ts) l.initialState 0
  have hmap : ∀ ks : List Token, (ks.map (·.atStart)).Pairwise (fun a b => a.offset < b.offset) ↔
      ks.Pairwise fun a b => a.offset < b.offset := fun ks => List.pairwise_map
  rw [← hmap, listing_ofLines l h, hmap]
  exact hpairwise

theorem countP_holds_listing (h : ts ≠ []) (byte : Nat) :
    (ofLines l ts).listing.countP (·.Holds byte) =
      if byte < Text.width (Text.joinLines ts) then 1 else 0 := by
  have hmap : ∀ ks : List Token, (ks.map (·.atStart)).countP (·.Holds byte) = ks.countP (·.Holds byte) :=
    fun ks => List.countP_map
  rw [← hmap, listing_ofLines l h, hmap, Language.countP_holds_tokenize]
  simp

theorem holds_newline_iff {start byte : Nat} (h : 0 < start) :
    (Token.newline (start - 1) 0).Holds byte ↔ start = byte + 1 := by
  have hstop : (Token.newline (start - 1) 0).offsetStop = start - 1 + 0 + 1 := rfl
  unfold Token.Holds
  rw [hstop]
  simp only [Token.newline]
  omega

/-- A line that is not the first has a line break before it. -/
theorem lineStart?_succ_bounds {i s : Nat} (h : (ofLines l ts).lineStart? (i + 1) = some s) :
    i + 1 < (ofLines l ts).lineCount ∧ 0 < s := by
  change (startsFrom 0 (lexLines l l.initialState ts))[i + 1]? = some s at h
  obtain ⟨hi, rfl⟩ := List.getElem?_eq_some_iff.1 h
  have hpairwise := pairwise_startsFrom 0 (lexLines l l.initialState ts)
  have hlt := List.pairwise_iff_getElem.1 hpairwise 0 (i + 1) (by omega) hi (Nat.succ_pos i)
  rw [length_startsFrom] at hi
  exact ⟨hi, Nat.zero_lt_of_lt hlt⟩

/-- The line breaks between lines hold the bytes just before lines that are not the first. -/
theorem exists_break_holds_iff {byte : Nat} :
    (∃ k ∈ (List.range (ofLines l ts).lineCount).flatMap (ofLines l ts).breakBefore, k.Holds byte) ↔
      ∃ i, (ofLines l ts).lineStart? (i + 1) = some (byte + 1) := by
  constructor
  · rintro ⟨k, hk, hbyte⟩
    obtain ⟨i, -, hk⟩ := List.mem_flatMap.1 hk
    cases i with
    | zero => cases hk
    | succ i =>
      refine ⟨i, ?_⟩
      cases hs : (ofLines l ts).lineStart? (i + 1) with
      | none =>
        simp only [breakBefore, hs] at hk
        cases hk
      | some s =>
        simp only [breakBefore, hs, List.mem_singleton] at hk
        rw [hk, holds_newline_iff (lineStart?_succ_bounds l hs).2] at hbyte
        rw [hbyte]
  · rintro ⟨i, hi⟩
    have hbounds := lineStart?_succ_bounds l hi
    refine ⟨Token.newline byte 0, List.mem_flatMap.2 ⟨i + 1, List.mem_range.2 hbounds.1, ?_⟩, ?_⟩
    · simp only [breakBefore, hi, Nat.add_sub_cancel, List.mem_singleton]
    · exact (holds_newline_iff hbounds.2).2 rfl

/-- One token of a line at most holds a byte, and one does if the text has the byte and it is not that of a
line break between two lines. -/
theorem countP_holds_tokens (h : ts ≠ []) (byte : Nat) :
    (ofLines l ts).tokens.countP (·.Holds byte) ≤ 1 ∧
      ((ofLines l ts).tokens.countP (·.Holds byte) = 1 ↔
        byte < Text.width (Text.joinLines ts) ∧ ∀ i, (ofLines l ts).lineStart? (i + 1) ≠ some (byte + 1)) := by
  have hsplit : (ofLines l ts).listing.countP (·.Holds byte) =
      ((List.range (ofLines l ts).lineCount).flatMap (ofLines l ts).breakBefore).countP (·.Holds byte) +
        (ofLines l ts).tokens.countP (·.Holds byte) := countP_flatMap_append ..
  have hbreak : 0 < ((List.range (ofLines l ts).lineCount).flatMap (ofLines l ts).breakBefore).countP
      (·.Holds byte) ↔ ∃ i, (ofLines l ts).lineStart? (i + 1) = some (byte + 1) := by
    rw [← exists_break_holds_iff, List.countP_pos_iff]
    simp only [decide_eq_true_eq]
  rw [countP_holds_listing l h] at hsplit
  -- the text has the byte in one token, which is a line break or belongs to a line
  rw [← not_exists, ← hbreak]
  split_ifs at hsplit with hbyte
  · constructor <;> omega
  · constructor <;> omega

end OfLines

/-- Whatever edits lead from a text to a document, and whatever the range: the search finds the tokens of the
lines that have a byte of the range, all of them, in order and each once; the range is at least the one byte at
its start. In an empty or reversed range at most one token is found, and one is unless the byte at its start is
past the text or that of a line break between two lines. -/
theorem tokensInRange_exact (l : Language) (t : Text) (edits : List Edit) (start stop : Nat) :
    let d := (ofText l t).editedBy edits
    d.tokensInRange start stop = d.tokens.filter (·.Meets start (max stop (start + 1))) ∧
    (d.tokensInRange start stop).Pairwise (fun a b => a.offset < b.offset) ∧
    (stop ≤ start → (d.tokensInRange start stop).length ≤ 1 ∧
      ((d.tokensInRange start stop).length = 1 ↔
        start < Text.width d.text ∧ ∀ i, d.lineStart? (i + 1) ≠ some (start + 1))) := by
  have hreach : (ofText l t).editedBy edits = ofLines l (Edit.allOnTexts (Text.lines t) edits) :=
    editedBy_ofLines l (Text.lines t) edits
  have hne := allOnTexts_ne_nil (Text.lines_ne_nil t) edits
  simp only [hreach, text_ofLines]
  generalize Edit.allOnTexts (Text.lines t) edits = ts at hne
  refine ⟨tokensInRange_ofLines l ts start stop, ?_, ?_⟩
  · rw [tokensInRange_ofLines]
    exact (pairwise_listing l hne).sublist (List.filter_sublist.trans (tokens_sublist_listing _))
  · intro hstop
    have hlength : ((ofLines l ts).tokensInRange start stop).length =
        (ofLines l ts).tokens.countP (·.Holds start) := by
      rw [tokensInRange_ofLines, Nat.max_eq_right (by omega), ← List.countP_eq_length_filter]
      refine List.countP_congr fun k _ => ?_
      simp only [decide_eq_true_eq, Token.meets_succ_iff]
    rw [hlength]
    exact countP_holds_tokens l hne start

example : (ofText .decoHack "a b\nc".toList).tokensInRange 2 5 =
    [⟨.identifier, ['b'], 2, 2, false⟩, ⟨.identifier, ['c'], 0, 4, false⟩] := by decide +kernel

example : (ofText .decoHack "a b\nc".toList).tokensInRange 3 0 = [] := by decide +kernel

end Document

end DoomLex
