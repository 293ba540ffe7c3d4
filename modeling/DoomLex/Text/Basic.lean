/-
Texts: lists of characters, measured in the bytes of their UTF-8 form. The width of a text is the
number of its bytes, a cut after some bytes succeeds exactly on a character boundary, and the lines
of a text are what stands between its line breaks, so that joining them gives the text back.
-/
import DoomLex.Total

namespace DoomLex

/-- A text is the list of its characters. -/
abbrev Text := List Char

namespace Text

/-! ## Width -/

/-- The number of bytes of a text in UTF-8. -/
def width (t : Text) : Nat := total Char.utf8Size t

@[simp] theorem width_nil : width [] = 0 := rfl

@[simp] theorem width_cons (c : Char) (t : Text) : width (c :: t) = c.utf8Size + width t := by
  simp [width]

@[simp] theorem width_append (s t : Text) : width (s ++ t) = width s + width t := by
  simp [width]

theorem width_pos {t : Text} (h : t ≠ []) : 0 < width t := by
  cases t with
  | nil => exact absurd rfl h
  | cons c t => have := Char.utf8Size_pos c; simp; omega

theorem width_reverse (t : Text) : width t.reverse = width t := by
  simp [width, total_reverse]

/-! ## Cuts at byte positions -/

/-- Cuts a text after its first `n` bytes; there is no cut inside a character or past the end. -/
def splitAt? : Text → Nat → Option (Text × Text)
  | t, 0 => some ([], t)
  | [], _ + 1 => none
  | c :: t, n + 1 =>
    if c.utf8Size ≤ n + 1 then (splitAt? t (n + 1 - c.utf8Size)).map fun (s, r) => (c :: s, r) else none

/-- The stretch of a text from byte `start` up to byte `stop`. -/
def slice? (t : Text) (start stop : Nat) : Option Text :=
  if start ≤ stop then do
    let (_, rest) ← t.splitAt? start
    let (inside, _) ← splitAt? rest (stop - start)
    pure inside
  else none

/-! ## Lines -/

/-- The lines of a text, at least one: the stretches between its line breaks. -/
def lines (t : Text) : List Text := t.splitOn '\n'

/-- Lines put together again, with a line break between each two. -/
def joinLines (ls : List Text) : Text := ['\n'].intercalate ls

theorem lines_ne_nil (t : Text) : lines t ≠ [] := List.splitOn_ne_nil _ _

@[simp] theorem joinLines_singleton (t : Text) : joinLines [t] = t := by simp [joinLines]

theorem joinLines_cons_cons (t u : Text) (rest : List Text) :
    joinLines (t :: u :: rest) = t ++ '\n' :: joinLines (u :: rest) := by
  simp [joinLines, List.intercalate]

theorem joinLines_lines (t : Text) : joinLines (lines t) = t := List.intercalate_splitOn _

end Text

end DoomLex
