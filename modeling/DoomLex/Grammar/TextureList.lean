/-
The machine of texture lists (DEUTex): a line names a texture and its size, and each line after it
that starts with a star names a patch and its place. A name on a line is the name of a patch if the
line has had a star at the start of a token.
-/
import DoomLex.Alphabet
import DoomLex.Machine
import DoomLex.Text.Blank
import DoomLex.Text.Digits

namespace DoomLex.TextureList

/-- What token the scan is in. -/
inductive Place where
  /-- Between tokens. -/
  | neutral
  | blank
  | comment
  | marker
  | decimal
  | name
  | badNumber
  | badName
deriving DecidableEq, Repr

/-- A state of the machine. -/
structure Scan where
  place : Place
  /-- Whether the line is one of a patch. -/
  onPatch : Bool
deriving DecidableEq, Repr

/-- The characters of names. -/
def nameChars : Alphabet := Alphabet.ofString "0123456789ABCDEFGHIJKLMNOPQRSTUVWXYZ[\\]^+-_"

/-- The answer to a character other than a line break. -/
def answer (s : Scan) (c : Char) : Answer Scan :=
  let goTo (place : Place) : Answer Scan := .take { s with place }
  let cut : Answer Scan := .cut { s with place := .neutral }
  match s.place with
  | .neutral =>
    if c = ';' then goTo .comment
    else if c = '*' then .take ⟨.marker, true⟩
    else if Text.isBlank c then goTo .blank
    else if Text.isDigit c then goTo .decimal
    else if nameChars.contains c then goTo .name
    else goTo .badName
  | .blank => if Text.isBlank c then goTo .blank else cut
  | .comment => goTo .comment
  | .marker => if Text.isBlank c then cut else goTo .badName
  | .decimal =>
    if Text.isBlank c then cut
    else if Text.isDigit c then goTo .decimal
    else if nameChars.contains c then goTo .name
    else goTo .badNumber
  | .name => if nameChars.contains c then goTo .name else cut
  | .badNumber => if Text.isBlank c then cut else goTo .badNumber
  | .badName => if Text.isBlank c then cut else goTo .badName

/-- The kind of a pending run. -/
def label (s : Scan) (_ : Text) : Kind :=
  match s.place with
  | .neutral | .blank => .whitespace
  | .comment => .lineComment
  | .marker => .patchMarker
  | .decimal => .decimal
  | .name => if s.onPatch then .patchName else .textureName
  | .badNumber => .errorNumber
  | .badName => .errorIdentifier

/-- The machine of texture lists. -/
def machine : Machine Scan where
  enter _ := ⟨.neutral, false⟩
  answer := answer
  label := label
  lastLabel := label
  leave _ := .neutral

end DoomLex.TextureList
