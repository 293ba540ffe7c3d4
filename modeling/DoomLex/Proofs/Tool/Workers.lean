/-
Shared work comes out as if it were done piece by piece. When some pieces are done, the slots of these have what the
pieces give and the others are as they were; as every piece is done in the end, the order in which that happens does not
show, nor how many workers there were.
-/
import DoomLex.Tool.Workers
import Mathlib.Data.List.Basic

namespace DoomLex.WorkerPool

variable {α β : Type} {f : α → β} {work : List α}

theorem length_fill (slots : List (Option β)) (i : Nat) : (fill f work slots i).length = slots.length :=
  List.length_set

theorem length_foldl_fill (done : List Nat) (slots : List (Option β)) :
    (done.foldl (fill f work) slots).length = slots.length := by
  induction done generalizing slots with
  | nil => rfl
  | cons i done ih => rw [List.foldl_cons, ih, length_fill]

/-- By induction on the pieces that are done; a piece that is done twice gives the same. -/
theorem getElem?_foldl_fill (done : List Nat) {slots : List (Option β)} {i : Nat} (hi : i < slots.length) :
    (done.foldl (fill f work) slots)[i]? = if i ∈ done then some (work[i]?.map f) else slots[i]? := by
  induction done generalizing slots with
  | nil => simp
  | cons j done ih =>
    rw [List.foldl_cons, ih (by rwa [length_fill])]
    by_cases hdone : i ∈ done
    · rw [if_pos hdone, if_pos (List.mem_cons_of_mem _ hdone)]
    · rw [if_neg hdone, fill, List.getElem?_set]
      by_cases hij : j = i
      · subst hij
        rw [if_pos rfl, if_pos hi, if_pos List.mem_cons_self]
      · have hcons : i ∉ j :: done := List.not_mem_cons_of_ne_of_not_mem (Ne.symm hij) hdone
        rw [if_neg hij, if_neg hcons]

/-- What a pool makes of its work is what each piece gives, in the order of the list. -/
theorem map_eq (pool : WorkerPool) (workers : Nat) (f : α → β) (work : List α) :
    pool.map workers f work = work.map f := by
  have hslots : (pool.order workers work.length).foldl (fill f work) (List.replicate work.length none) =
      work.map fun x => some (f x) := by
    refine List.ext_getElem? fun i => ?_
    by_cases hi : i < work.length
    · have hdone : i ∈ pool.order workers work.length :=
        (pool.order_perm workers work.length).mem_iff.2 (List.mem_range.2 hi)
      rw [getElem?_foldl_fill _ (by rwa [List.length_replicate]), if_pos hdone, List.getElem?_map,
        List.getElem?_eq_getElem hi]
      rfl
    · have hlength : work.length ≤ i := Nat.le_of_not_lt hi
      rw [List.getElem?_eq_none, List.getElem?_eq_none]
      · rwa [List.length_map]
      · rwa [length_foldl_fill, List.length_replicate]
  rw [map, hslots, List.filterMap_map]
  exact congrFun List.filterMap_eq_map work

end DoomLex.WorkerPool
