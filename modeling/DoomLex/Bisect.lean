/-
Search by halving: the first place in an interval where a condition that holds up to some point and
fails from there on stops to hold. Sorted tables, line indexes and alphabets are searched with it.
-/

namespace DoomLex

/-- The first `i` with `lo ≤ i < hi` at which `p` fails, or `hi`, if `p` never holds again once it has
failed. -/
def bisect (p : Nat → Bool) (lo hi : Nat) : Nat :=
  if lo < hi then
    if p ((lo + hi) / 2) then bisect p ((lo + hi) / 2 + 1) hi else bisect p lo ((lo + hi) / 2)
  else lo
termination_by hi - lo

theorem bisect_le {p : Nat → Bool} {lo hi : Nat} (h : lo ≤ hi) : bisect p lo hi ≤ hi := by
  fun_induction bisect p lo hi with
  | case1 lo hi hlt _ ih => exact ih (by omega)
  | case2 lo hi hlt _ ih => have := ih (by omega); omega
  | case3 lo hi hlt => exact h

/-- Left of the place found the condition holds, from it on it fails. -/
theorem bisect_spec {p : Nat → Bool} {lo hi : Nat} (h : lo ≤ hi)
    (mono : ∀ i j, i ≤ j → p j = true → p i = true) :
    (∀ i, lo ≤ i → i < bisect p lo hi → p i = true) ∧
      (∀ i, bisect p lo hi ≤ i → i < hi → p i = false) := by
  fun_induction bisect p lo hi with
  | case1 lo hi hlt hp ih =>
    obtain ⟨below, above⟩ := ih (by omega)
    refine ⟨fun i _ hb => ?_, above⟩
    by_cases hm : i ≤ (lo + hi) / 2
    · exact mono _ _ hm hp
    · exact below i (by omega) hb
  | case2 lo hi hlt hp ih =>
    obtain ⟨below, above⟩ := ih (by omega)
    refine ⟨below, fun i hb _ => ?_⟩
    by_cases hm : i < (lo + hi) / 2
    · exact above i hb hm
    · cases hpi : p i with
      | false => rfl
      | true => exact absurd (mono _ _ (by omega) hpi) hp
  | case3 lo hi hlt =>
    exact ⟨fun i h1 h2 => absurd h2 (by omega), fun i h1 h2 => absurd h2 (by omega)⟩

end DoomLex
