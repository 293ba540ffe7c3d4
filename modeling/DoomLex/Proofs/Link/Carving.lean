/-
Carving loses nothing: the pieces of a text are not empty, and put together they are the text.
-/
import DoomLex.Token

namespace DoomLex

namespace Link

theorem flatMap_text_plain (passed : Text) : (plain passed).flatMap (·.text) = passed.reverse := by
  cases passed <;> simp [plain]

theorem ne_nil_of_mem_plain {passed : Text} {p : Piece} (h : p ∈ plain passed) : p.text ≠ [] := by
  cases passed with
  | nil => cases h
  | cons c passed =>
    obtain rfl := List.mem_singleton.1 h
    simp

/-- The pieces are the characters passed and the text still to be carved. -/
theorem flatMap_text_carveFrom (form : LinkForm) (passed t : Text) :
    (carveFrom form passed t).flatMap (·.text) = passed.reverse ++ t := by
  fun_induction carveFrom form passed t with
  | case1 passed => simp [flatMap_text_plain]
  | case2 passed c t h ih => simp [ih]
  | case3 passed c t m h ih =>
    obtain ⟨ht, -⟩ := append_of_match? h
    rw [ht, List.flatMap_append, List.flatMap_cons, flatMap_text_plain, ih]
    simp

theorem ne_nil_of_mem_carveFrom {form : LinkForm} {passed t : Text} {p : Piece}
    (hp : p ∈ carveFrom form passed t) : p.text ≠ [] := by
  fun_induction carveFrom form passed t with
  | case1 passed => exact ne_nil_of_mem_plain hp
  | case2 passed c t h ih => exact ih hp
  | case3 passed c t m h ih =>
    rcases List.mem_append.1 hp with hp | hp
    · exact ne_nil_of_mem_plain hp
    · rcases List.mem_cons.1 hp with rfl | hp
      · exact (append_of_match? h).2
      · exact ih hp

end Link

/-! ## The pieces of a run -/

namespace Run

theorem flatMap_text_pieces (r : Run) : r.pieces.flatMap (·.text) = r.text := by
  unfold pieces
  split
  · exact Link.flatMap_text_carveFrom _ [] r.text
  · simp

theorem ne_nil_of_mem_pieces {r : Run} (hr : r.text ≠ []) {p : Piece} (hp : p ∈ r.pieces) : p.text ≠ [] := by
  unfold pieces at hp
  split at hp
  · exact Link.ne_nil_of_mem_carveFrom hp
  · obtain rfl := List.mem_singleton.1 hp
    exact hr

end Run

end DoomLex
