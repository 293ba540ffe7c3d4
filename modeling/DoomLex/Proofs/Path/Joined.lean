/-
A name joined to the path of a directory, and the way back: the path of the directory that the joined path is in. That
path is put together from components, so repeated slashes and dots are left out of it. What is left out are steps that
stay and no steps at all, so it leads where the path of the directory leads.
-/
import DoomLex.FileTree
import DoomLex.Proofs.Text.Cut
import Mathlib.Data.List.Flatten

namespace DoomLex

namespace Path

variable {p entry : Path} {first name piece : Text} {rest : List Text}

/-! ## Joining -/

/-- Whether a stretch behind the first counts for anything. -/
def counts (t : Text) : Bool := t ≠ [] ∧ t ≠ ['.']

end Path

end DoomLex
