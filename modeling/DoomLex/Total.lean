/-
Totals: the sum of a measure over the items of a list.
-/

namespace DoomLex

/-- The sum of a measure over the items of a list. -/
def total {α : Type} (measure : α → Nat) : List α → Nat
  | [] => 0
  | a :: rest => measure a + total measure rest

@[simp] theorem total_nil {α : Type} (measure : α → Nat) : total measure [] = 0 := rfl

@[simp] theorem total_cons {α : Type} (measure : α → Nat) (a : α) (rest : List α) :
    total measure (a :: rest) = measure a + total measure rest := rfl

@[simp] theorem total_append {α : Type} (measure : α → Nat) (xs ys : List α) :
    total measure (xs ++ ys) = total measure xs + total measure ys := by
  induction xs with
  | nil => simp
  | cons a xs ih => simp [ih, Nat.add_assoc]

theorem total_reverse {α : Type} (measure : α → Nat) (xs : List α) :
    total measure xs.reverse = total measure xs := by
  induction xs with
  | nil => rfl
  | cons a xs ih => simp [ih, Nat.add_comm]

end DoomLex
