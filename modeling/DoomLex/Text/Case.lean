/-
Letter case in ASCII. Words of the languages, names of languages and file extensions are compared
without regard to the case of ASCII letters; no other letter is ever folded.
-/
import DoomLex.Text.Basic

namespace DoomLex.Text

/-- The text with its ASCII capital letters made small. -/
def foldCase (t : Text) : Text := t.map Char.toLower

/-- Equality up to the case of ASCII letters. -/
def sameFolded (s t : Text) : Bool := foldCase s == foldCase t

@[simp] theorem foldCase_nil : foldCase [] = [] := rfl

@[simp] theorem foldCase_cons (c : Char) (t : Text) : foldCase (c :: t) = c.toLower :: foldCase t := rfl

@[simp] theorem foldCase_append (s t : Text) : foldCase (s ++ t) = foldCase s ++ foldCase t := by
  simp [foldCase]

theorem sameFolded_iff {s t : Text} : sameFolded s t = true ↔ foldCase s = foldCase t := by
  simp [sameFolded]

end DoomLex.Text
