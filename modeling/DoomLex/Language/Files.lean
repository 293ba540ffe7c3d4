/-
The language of a file by its path: the file name decides before the extension.
-/
import DoomLex.Language
import DoomLex.Path

namespace DoomLex.Language

/-- The language of the file at a path. -/
def ofPath? (p : Path) : Option Language :=
  (p.fileName?.bind ofFileName?).or (p.extension?.bind ofExtension?)

end DoomLex.Language
