/-
Alphabets: sets of characters kept in ascending order without repetition, so that membership is
decided by halving. The separators and delimiters of the lexers are alphabets.
-/
import DoomLex.Bisect
import DoomLex.Text.Quoted

namespace DoomLex

/-- Puts a character into an ascending list, unless it is there. -/
def insertAscending (c : Char) : List Char → List Char
  | [] => [c]
  | d :: ds => if c < d then c :: d :: ds else if c = d then d :: ds else d :: insertAscending c ds

theorem mem_insertAscending {c x : Char} {ds : List Char} :
    x ∈ insertAscending c ds ↔ x = c ∨ x ∈ ds := by
  induction ds with
  | nil => simp [insertAscending]
  | cons d ds ih =>
    unfold insertAscending
    split
    · simp
    · split
      · rename_i h; subst h; simp
      · simp only [List.mem_cons, ih]
        constructor
        · rintro (h | h | h) <;> simp [h]
        · rintro (h | h | h) <;> simp [h]

theorem pairwise_insertAscending {c : Char} {ds : List Char} (h : ds.Pairwise (· < ·)) :
    (insertAscending c ds).Pairwise (· < ·) := by
  induction ds with
  | nil => simp [insertAscending]
  | cons d ds ih =>
    obtain ⟨hd, hds⟩ := List.pairwise_cons.1 h
    unfold insertAscending
    split
    · rename_i hlt
      refine List.pairwise_cons.2 ⟨fun x hx => ?_, h⟩
      rcases List.mem_cons.1 hx with rfl | hx
      · exact hlt
      · exact Char.lt_trans hlt (hd x hx)
    · rename_i hlt
      split
      · exact h
      · rename_i hne
        refine List.pairwise_cons.2 ⟨fun x hx => ?_, ih hds⟩
        rcases mem_insertAscending.1 hx with rfl | hx
        · exact Std.lt_of_le_of_ne (Char.not_lt.1 hlt) (fun e => hne e.symm)
        · exact hd x hx

/-- A set of characters in ascending order. -/
structure Alphabet where
  chars : Array Char
  ascending : chars.toList.Pairwise (· < ·) := by decide

namespace Alphabet

theorem ext_chars {a b : Alphabet} (h : a.chars = b.chars) : a = b := by
  cases a; cases b; simp_all

/-- The alphabet without a character. -/
def empty : Alphabet where
  chars := #[]

/-- The alphabet with one more character. -/
def insert (a : Alphabet) (c : Char) : Alphabet where
  chars := (insertAscending c a.chars.toList).toArray
  ascending := by simpa using pairwise_insertAscending a.ascending

/-- The characters of a text, in any order and repeated at will. -/
def ofText (t : Text) : Alphabet := t.foldl insert empty

/-- The characters of a string. -/
def ofString (s : String) : Alphabet := ofText s.toList

/-- Whether the character belongs to the alphabet, found by halving. -/
def contains (a : Alphabet) (c : Char) : Bool :=
  let i := bisect (fun i => a.chars[i]?.any (· < c)) 0 a.chars.size
  a.chars[i]? == some c

/-- The characters in ascending order. -/
def toText (a : Alphabet) : Text := a.chars.toList

/-- The number of characters. -/
def size (a : Alphabet) : Nat := a.chars.size

/-- Whether there is no character. -/
def isEmpty (a : Alphabet) : Bool := a.chars.isEmpty

/-- The alphabet as it shows in a message: its characters as a quoted text. -/
def display (a : Alphabet) : String := "Alphabet(" ++ Text.quotedString (String.ofList a.toText) ++ ")"

end Alphabet

end DoomLex
