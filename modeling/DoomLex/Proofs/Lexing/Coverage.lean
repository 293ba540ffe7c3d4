/-
The tokens of a text cover it exactly: none is empty, each starts where the one before it ended, from
the first byte of the text to its last, and each holds the characters at its place. The places are
computed without leaving the range of 64-bit words, as long as the place in the document at which the
text ends is in it.
-/
import DoomLex.Proofs.Lexing.Layout
import DoomLex.Proofs.Text.Cut

namespace DoomLex

/-! ## Places in 64-bit words -/

/-- The sum of two places, if it fits into a word. -/
def placeAdd? (a b : Nat) : Option Nat := if a + b < UInt64.size then some (a + b) else none

/-- The difference of two places, if it is not below zero. -/
def placeSub? (a b : Nat) : Option Nat := if b ≤ a then some (a - b) else none

/-- The places of a token as words: its first and its last byte in its text, and its first byte in
the document. -/
structure Span where
  kind : Kind
  first : Nat
  last : Nat
  offset : Nat
  link : Bool
deriving DecidableEq, Repr

/-- The places of a token. -/
def Token.span (k : Token) : Span := ⟨k.kind, k.start, k.last, k.offset, k.link⟩

/-- Lays stretches end to end as `layOut` does, and fails where a sum or a difference of places leaves
the range of words. -/
def spans? (offset start : Nat) : List (Kind × Piece) → Option (List Span)
  | [] => some []
  | (kind, piece) :: rest => do
    let stop ← placeAdd? start (Text.width piece.text)
    let last ← placeSub? stop 1
    let place ← placeAdd? offset start
    let more ← spans? offset stop rest
    return ⟨kind, start, last, place, piece.link⟩ :: more

theorem placeAdd?_eq_some {a b : Nat} (h : a + b < UInt64.size) : placeAdd? a b = some (a + b) := if_pos h

theorem placeSub?_eq_some {a b : Nat} (h : b ≤ a) : placeSub? a b = some (a - b) := if_pos h

theorem spans?_eq_some {offset start : Nat} {ps : List (Kind × Piece)} (hne : ∀ p ∈ ps, p.2.text ≠ [])
    (fits : offset + start + Text.width (stretchText ps) < UInt64.size) :
    spans? offset start ps = some ((layOut offset start ps).map Token.span) := by
  induction ps generalizing start with
  | nil => rfl
  | cons p ps ih =>
    rw [stretchText_cons, Text.width_append] at fits
    -- no place on the way is past the one after the text, and the token has a byte to take off
    have hpos := Text.width_pos (hne p (List.mem_cons_self ..))
    have hstop : placeAdd? start (Text.width p.2.text) = some (start + Text.width p.2.text) :=
      placeAdd?_eq_some (by omega)
    have hlast : placeSub? (start + Text.width p.2.text) 1 = some (start + Text.width p.2.text - 1) :=
      placeSub?_eq_some (by omega)
    have hplace : placeAdd? offset start = some (offset + start) := placeAdd?_eq_some (by omega)
    have hmore : spans? offset (start + Text.width p.2.text) ps =
        some ((layOut offset (start + Text.width p.2.text) ps).map Token.span) :=
      ih (fun q hq => hne q (List.mem_cons_of_mem _ hq)) (by omega)
    simp only [spans?, hstop, hlast, hplace, hmore, Option.bind_eq_bind, Option.bind_some]
    rfl

/-! ## Coverage -/

/-- Tokens that cover a text, which starts at byte `offset` of the document. -/
structure Covers (offset : Nat) (t : Text) (tokens : List Token) : Prop where
  first : ∀ k, tokens.head? = some k → k.start = 0
  next : tokens.IsChain fun a b => b.start = a.last + 1
  last : ∀ k, tokens.getLast? = some k → k.last + 1 = Text.width t
  empty : tokens = [] ↔ t = []
  nonempty : ∀ k ∈ tokens, k.text ≠ [] ∧ k.start ≤ k.last
  boundary : ∀ k ∈ tokens, t.IsBoundary k.start ∧ t.IsBoundary (k.last + 1)
  slice : ∀ k ∈ tokens, t.slice? k.start (k.last + 1) = some k.text
  text : tokens.flatMap (·.text) = t
  place : ∀ k ∈ tokens, k.offset = offset + k.start

theorem Token.start_lt_stop {k : Token} (h : k.text ≠ []) : k.start < k.stop :=
  Nat.lt_add_of_pos_right (Text.width_pos h)

theorem Token.last_add_one {k : Token} (h : k.text ≠ []) : k.last + 1 = k.stop := by
  have := Token.start_lt_stop h
  unfold last
  omega

/-- The two ends of a token cut the text, and what stands between them is the text of the token. -/
theorem cuts_of_mem_layOut {offset : Nat} {ps : List (Kind × Piece)} {k : Token} (h : k ∈ layOut offset 0 ps) :
    Text.IsBoundary (stretchText ps) k.start ∧ Text.IsBoundary (stretchText ps) k.stop ∧
      Text.slice? (stretchText ps) k.start k.stop = some k.text := by
  obtain ⟨before, after, ht, hs, -⟩ := split_of_mem_layOut offset 0 ps h
  have hstart : Text.width before = k.start := by rw [hs, Nat.zero_add]
  have hstop : Text.width (before ++ k.text) = k.stop := by
    rw [Text.width_append, hstart]
    rfl
  have hslice := Text.slice?_append before k.text after
  rw [← Text.width_append, hstart, hstop] at hslice
  rw [ht]
  exact ⟨⟨before, k.text ++ after, List.append_assoc .., hstart⟩, ⟨before ++ k.text, after, rfl, hstop⟩, hslice⟩

/-- Stretches that are not empty are covered by the tokens laid out over them. -/
theorem covers_layOut (offset : Nat) {ps : List (Kind × Piece)} (hne : ∀ p ∈ ps, p.2.text ≠ []) :
    Covers offset (stretchText ps) (layOut offset 0 ps) := by
  have hk : ∀ k ∈ layOut offset 0 ps, k.text ≠ [] := by
    intro k hk
    obtain ⟨p, hp, -, ht, -⟩ := exists_stretch_of_mem_layOut offset 0 ps hk
    rw [ht]
    exact hne p hp
  refine ⟨?_, ?_, ?_, ?_, ?_, ?_, ?_, flatMap_text_layOut offset 0 ps, ?_⟩
  · intro k h
    exact start_head_layOut offset 0 ps h
  · refine List.IsChain.imp_of_mem_imp ?_ (isChain_layOut offset 0 ps)
    intro a b ha _ h
    rw [h, Token.last_add_one (hk a ha)]
  · intro k h
    have hstop := stop_last_layOut offset 0 ps h
    rw [Token.last_add_one (hk k (List.mem_of_getLast? h)), hstop, Nat.zero_add]
  · constructor
    · intro h
      rw [← flatMap_text_layOut offset 0 ps, h]
      rfl
    · intro h
      cases ps with
      | nil => rfl
      | cons p ps =>
        rw [stretchText_cons, List.append_eq_nil_iff] at h
        exact absurd h.1 (hne p (List.mem_cons_self ..))
  · intro k h
    exact ⟨hk k h, Nat.le_sub_one_of_lt (Token.start_lt_stop (hk k h))⟩
  · intro k h
    obtain ⟨hstart, hstop, -⟩ := cuts_of_mem_layOut h
    rw [Token.last_add_one (hk k h)]
    exact ⟨hstart, hstop⟩
  · intro k h
    obtain ⟨-, -, hslice⟩ := cuts_of_mem_layOut h
    rw [Token.last_add_one (hk k h)]
    exact hslice
  · intro k h
    obtain ⟨_, _, _, _, ho⟩ := split_of_mem_layOut offset 0 ps h
    exact ho

/-- The places of the tokens of a text, computed in words. -/
def Language.spans? (l : Language) (t : Text) (state : LineState) (offset : Nat) : Option (List Span) :=
  DoomLex.spans? offset 0 (stretches (l.scan state t).1)

/-- The tokens of a text that starts in any line state cover it, pieces of links among them. If the
place in the document after the text fits into a word, so do all places that are computed on the way,
and no last byte is sought before the first byte of the text. -/
theorem tokenize_covers (l : Language) (t : Text) (state : LineState) (offset : Nat)
    (fits : offset + Text.width t < UInt64.size) :
    Covers offset t (l.tokenize t state offset).tokens ∧
      l.spans? t state offset = some ((l.tokenize t state offset).tokens.map Token.span) := by
  have htext : stretchText (stretches (l.scan state t).1) = t := by
    rw [stretchText_stretches, l.textOf_scan]
  have hne : ∀ p ∈ stretches (l.scan state t).1, p.2.text ≠ [] :=
    fun p hp => ne_nil_of_mem_stretches (fun r hr => Language.ne_nil_of_mem_scan hr) hp
  constructor
  · have h := covers_layOut offset hne
    rw [htext] at h
    exact h
  · exact spans?_eq_some hne (by rw [htext]; exact fits)

/-- A comment with an address in it, characters of two and more bytes, and the last place that fits. -/
theorem tokenize_covers_last_place :
    let t := "// é http://a.b/ü\n\"∀".toList
    UInt64.size - 25 + Text.width t < UInt64.size ∧
      Covers (UInt64.size - 25) t (Language.decoHack.tokenize t .neutral (UInt64.size - 25)).tokens ∧
      Language.decoHack.spans? t .neutral (UInt64.size - 25) =
        some ((Language.decoHack.tokenize t .neutral (UInt64.size - 25)).tokens.map Token.span) :=
  ⟨by decide,
    tokenize_covers .decoHack "// é http://a.b/ü\n\"∀".toList .neutral (UInt64.size - 25) (by decide)⟩

end DoomLex
