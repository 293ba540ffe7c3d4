/-
Columns of reports: texts filled up with blanks to a width, counted in characters.
-/
import DoomLex.Text.Digits

namespace DoomLex

/-- Fills a text up on the right. -/
def padRight (width : Nat) (t : Text) : Text := t ++ List.replicate (width - t.length) ' '

/-- Fills a text up on the left. -/
def padLeft (width : Nat) (t : Text) : Text := List.replicate (width - t.length) ' ' ++ t

end DoomLex
