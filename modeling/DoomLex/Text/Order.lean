/-
The order of texts: the first characters that differ decide, and a text comes before all others that
start with it. It is a strict order in which any two different texts are comparable.
-/
import DoomLex.Text.Basic

namespace DoomLex.Text

/-- Whether a text comes before another. -/
def precedes : Text → Text → Bool
  | _, [] => false
  | [], _ :: _ => true
  | c :: s, d :: t => c < d || (c == d && precedes s t)

theorem precedes_cons_cons {c d : Char} {s t : Text} :
    precedes (c :: s) (d :: t) = true ↔ c < d ∨ c = d ∧ precedes s t = true := by
  simp [precedes]

theorem precedes_self (t : Text) : precedes t t = false := by
  induction t with
  | nil => rfl
  | cons c t ih => simp [precedes, ih]

theorem precedes_trans {r s t : Text} (h₁ : precedes r s = true) (h₂ : precedes s t = true) :
    precedes r t = true := by
  induction r generalizing s t with
  | nil =>
    cases t with
    | nil => cases s <;> simp [precedes] at h₂
    | cons d t => rfl
  | cons c r ih =>
    cases s with
    | nil => simp [precedes] at h₁
    | cons d s =>
      cases t with
      | nil => simp [precedes] at h₂
      | cons e t =>
        rw [precedes_cons_cons] at h₁ h₂ ⊢
        rcases h₁ with h₁ | ⟨rfl, h₁⟩
        · rcases h₂ with h₂ | ⟨rfl, h₂⟩
          · exact .inl (Char.lt_trans h₁ h₂)
          · exact .inl h₁
        · rcases h₂ with h₂ | ⟨rfl, h₂⟩
          · exact .inl h₂
          · exact .inr ⟨rfl, ih h₁ h₂⟩

theorem eq_of_not_precedes {s t : Text} (h₁ : precedes s t = false) (h₂ : precedes t s = false) :
    s = t := by
  induction s generalizing t with
  | nil =>
    cases t with
    | nil => rfl
    | cons d t => simp [precedes] at h₁
  | cons c s ih =>
    cases t with
    | nil => simp [precedes] at h₂
    | cons d t =>
      simp only [precedes, Bool.or_eq_false_iff, decide_eq_false_iff_not, Char.not_lt] at h₁ h₂
      obtain rfl : c = d := Char.le_antisymm h₂.1 h₁.1
      simp only [beq_self_eq_true, Bool.true_and] at h₁ h₂
      rw [ih h₁.2 h₂.2]

end DoomLex.Text
