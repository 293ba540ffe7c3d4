/-
Work that is shared out. A pool has to start its workers first, which may fail. They come to the pieces of the work in
an order of their own; what a piece gives is put where the piece stands in the list, and when all slots are filled, they
are the result.
-/
import DoomLex.Text.Basic

namespace DoomLex

/-- A pool of workers. -/
structure WorkerPool where
  /-- Why so many workers cannot be started, if they cannot. -/
  fault? : Nat → Option Text
  /-- The order in which so many workers finish so many pieces of work. -/
  order : Nat → Nat → List Nat
  /-- Each piece is done, and done once. -/
  order_perm : ∀ workers n, (order workers n).Perm (List.range n)

namespace WorkerPool

/-- The pool that always starts and does the work in its order; it is meant where none is named. -/
def inOrder : WorkerPool where
  fault? _ := none
  order _ n := List.range n
  order_perm _ _ := .refl _

variable {α β : Type}

/-- Puts what a piece of the work gives into its slot. -/
def fill (f : α → β) (work : List α) (slots : List (Option β)) (i : Nat) : List (Option β) :=
  slots.set i (work[i]?.map f)

/-- What so many workers make of a list of work. -/
def map (pool : WorkerPool) (workers : Nat) (f : α → β) (work : List α) : List β :=
  let slots := (pool.order workers work.length).foldl (fill f work) (List.replicate work.length none)
  slots.filterMap id

end WorkerPool

end DoomLex
