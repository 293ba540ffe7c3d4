/-
Stretches laid end to end: the tokens follow each other without a gap from the start given, each
stands over the text it holds, and laying out two lists one after the other is laying out each from
where it starts.
-/
import DoomLex.Proofs.Link.Carving
import DoomLex.Proofs.Lexing.Runs
import Mathlib.Data.List.Chain

namespace DoomLex

/-- The token as one of a text with that many more bytes in front, at the same place of the
document. -/
def Token.behind (k : Token) (bytes : Nat) : Token := { k with start := k.start + bytes }

/-- The pieces of runs, each with the kind of its run. -/
def stretches (runs : List Run) : List (Kind × Piece) :=
  runs.flatMap fun r => r.pieces.map fun p => (r.kind, p)

/-- The text of stretches. -/
def stretchText (ps : List (Kind × Piece)) : Text := ps.flatMap (·.2.text)

@[simp] theorem stretchText_nil : stretchText [] = [] := rfl

@[simp] theorem stretchText_cons (p : Kind × Piece) (ps : List (Kind × Piece)) :
    stretchText (p :: ps) = p.2.text ++ stretchText ps := rfl

@[simp] theorem stretchText_append (ps qs : List (Kind × Piece)) :
    stretchText (ps ++ qs) = stretchText ps ++ stretchText qs := by
  simp [stretchText]

/-- The pieces of runs, cut in some way, each with the kind of its run. -/
def stretchesBy (cut : Run → List Piece) (runs : List Run) : List (Kind × Piece) :=
  runs.flatMap fun r => (cut r).map fun p => (r.kind, p)

theorem stretchesBy_append (cut : Run → List Piece) (runs runs' : List Run) :
    stretchesBy cut (runs ++ runs') = stretchesBy cut runs ++ stretchesBy cut runs' := by
  simp [stretchesBy]

theorem stretchText_stretchesBy {cut : Run → List Piece} (hcut : ∀ r, (cut r).flatMap (·.text) = r.text)
    (runs : List Run) : stretchText (stretchesBy cut runs) = Run.textOf runs := by
  induction runs with
  | nil => rfl
  | cons r runs ih =>
    have hr : stretchText ((cut r).map fun p => (r.kind, p)) = r.text := by
      rw [stretchText, List.flatMap_map]
      exact hcut r
    rw [Run.textOf_cons, ← ih, ← hr, ← stretchText_append]
    rfl

theorem stretchText_stretches (runs : List Run) : stretchText (stretches runs) = Run.textOf runs :=
  stretchText_stretchesBy Run.flatMap_text_pieces runs

theorem ne_nil_of_mem_stretches {runs : List Run} (h : ∀ r ∈ runs, r.text ≠ []) {p : Kind × Piece}
    (hp : p ∈ stretches runs) : p.2.text ≠ [] := by
  obtain ⟨r, hr, hp⟩ := List.mem_flatMap.1 hp
  obtain ⟨q, hq, rfl⟩ := List.mem_map.1 hp
  exact Run.ne_nil_of_mem_pieces (h r hr) hq

/-! ## Laying out -/

section LayOut

variable (offset start : Nat) (ps qs : List (Kind × Piece))

theorem layOut_append :
    layOut offset start (ps ++ qs) =
      layOut offset start ps ++ layOut offset (start + Text.width (stretchText ps)) qs := by
  induction ps generalizing start with
  | nil => rfl
  | cons p ps ih => simp [layOut, ih, Nat.add_assoc]

/-- Bytes in front of the text count in the places in the text, or in the place of the text. -/
theorem layOut_behind (bytes : Nat) :
    layOut offset (start + bytes) ps = (layOut (offset + bytes) start ps).map (·.behind bytes) := by
  induction ps generalizing start with
  | nil => rfl
  | cons p ps ih =>
    have h : start + bytes + Text.width p.2.text = start + Text.width p.2.text + bytes := by omega
    simp only [layOut, List.map_cons, Token.behind, h, ih]
    congr 2
    omega

theorem flatMap_text_layOut : (layOut offset start ps).flatMap (·.text) = stretchText ps := by
  induction ps generalizing start with
  | nil => rfl
  | cons p ps ih => simp [layOut, ih]

/-- A token is of the kind of its stretch and holds the text of it. -/
theorem map_run_layOut : (layOut offset start ps).map (fun k => (⟨k.kind, k.text⟩ : Run)) =
    ps.map fun p => ⟨p.1, p.2.text⟩ := by
  induction ps generalizing start with
  | nil => rfl
  | cons p ps ih => simp [layOut, ih]

theorem start_head_layOut {k : Token} (h : (layOut offset start ps).head? = some k) : k.start = start := by
  cases ps with
  | nil => cases h
  | cons p ps => cases h; rfl

/-- Each token starts where the one before it stops. -/
theorem isChain_layOut : (layOut offset start ps).IsChain fun a b => b.start = a.stop := by
  induction ps generalizing start with
  | nil => exact .nil
  | cons p ps ih =>
    refine List.isChain_cons.2 ⟨?_, ih _⟩
    intro k hk
    exact start_head_layOut offset _ ps hk

theorem stop_last_layOut {k : Token} (h : (layOut offset start ps).getLast? = some k) :
    k.stop = start + Text.width (stretchText ps) := by
  induction ps generalizing start with
  | nil => cases h
  | cons p ps ih =>
    rw [stretchText_cons, Text.width_append, ← Nat.add_assoc]
    -- the last token is that of the rest, unless there is no rest
    cases ps with
    | nil => cases h; rfl
    | cons q ps => exact ih _ (by simpa [layOut] using h)

/-- A token stands in the text after what is laid out before it. -/
theorem split_of_mem_layOut {k : Token} (h : k ∈ layOut offset start ps) :
    ∃ before after, stretchText ps = before ++ k.text ++ after ∧ k.start = start + Text.width before ∧
      k.offset = offset + k.start := by
  induction ps generalizing start with
  | nil => cases h
  | cons p ps ih =>
    rcases List.mem_cons.1 h with rfl | h
    · exact ⟨[], stretchText ps, by simp, by simp, rfl⟩
    · obtain ⟨before, after, ht, hs, ho⟩ := ih _ h
      refine ⟨p.2.text ++ before, after, by simp [ht], ?_, ho⟩
      rw [hs, Text.width_append]
      omega

/-- A token starts behind the texts of the tokens before it. -/
theorem start_of_layOut_eq {before after : List Token} {k : Token}
    (h : layOut offset start ps = before ++ k :: after) :
    k.start = start + Text.width (before.flatMap (·.text)) := by
  induction before generalizing start ps with
  | nil => exact start_head_layOut offset start ps (by rw [h]; rfl)
  | cons b before ih =>
    cases ps with
    | nil => cases h
    | cons p ps =>
      obtain ⟨hfirst, hrest⟩ := List.cons.inj h
      rw [ih _ _ hrest, ← hfirst, List.flatMap_cons, Text.width_append, Nat.add_assoc]

theorem exists_stretch_of_mem_layOut {k : Token} (h : k ∈ layOut offset start ps) :
    ∃ p ∈ ps, k.kind = p.1 ∧ k.text = p.2.text ∧ k.link = p.2.link := by
  induction ps generalizing start with
  | nil => cases h
  | cons p ps ih =>
    rcases List.mem_cons.1 h with rfl | h
    · exact ⟨p, List.mem_cons_self .., rfl, rfl, rfl⟩
    · obtain ⟨q, hq, hk⟩ := ih _ h
      exact ⟨q, List.mem_cons_of_mem _ hq, hk⟩

end LayOut

/-! ## The tokens of runs -/

theorem tokensOf_eq_layOut (offset : Nat) (runs : List Run) :
    tokensOf offset runs = layOut offset 0 (stretches runs) := rfl

theorem tokensOf_append (offset : Nat) (runs runs' : List Run) :
    tokensOf offset (runs ++ runs') =
      tokensOf offset runs ++
        (tokensOf (offset + Text.width (Run.textOf runs)) runs').map
          (·.behind (Text.width (Run.textOf runs))) := by
  have h : stretches (runs ++ runs') = stretches runs ++ stretches runs' := stretchesBy_append _ runs runs'
  rw [tokensOf_eq_layOut, h, layOut_append, stretchText_stretches, layOut_behind]
  rfl

end DoomLex
