/-
Named source texts with an index of their lines, for reports that point at lines and columns. Lines
and columns count from one, columns in characters; byte offsets count from zero.
-/
import DoomLex.Bisect
import DoomLex.Text.Quoted

namespace DoomLex

/-- Why a part of a source cannot be had. -/
inductive SourceError where
  | invalidRange (start stop : Nat)
  | outOfBounds (width start stop : Nat)
  | notCharBoundary (start stop : Nat)
  | invalidLine (line lineCount : Nat)
deriving DecidableEq, Repr

/-- The wording of an error. -/
def SourceError.message : SourceError → String
  | .invalidRange start stop => s!"Invalid range: start {start} > end {stop}"
  | .outOfBounds width start stop =>
    s!"Range out of bounds: file has {width} bytes, range is {start}..{stop}"
  | .notCharBoundary start stop => s!"Range {start}..{stop} is not on character boundaries"
  | .invalidLine line lineCount => s!"Invalid line number: {line} (file has {lineCount} lines)"

/-- A named text with the bytes at which its lines start. -/
structure Source where
  name : String
  content : Text
  starts : Array Nat

namespace Source

/-- The bytes after the line breaks of a text that starts at byte `offset`. -/
def breaksFrom (offset : Nat) : Text → List Nat
  | [] => []
  | c :: t =>
    if c = '\n' then (offset + 1) :: breaksFrom (offset + 1) t else breaksFrom (offset + c.utf8Size) t

/-- The source of a text. -/
def ofText (name : String) (content : Text) : Source :=
  ⟨name, content, (0 :: breaksFrom 0 content).toArray⟩

/-- The number of lines. -/
def lineCount (s : Source) : Nat := s.starts.size

/-- The byte at which a line starts; lines count from zero here. -/
def lineStart? (s : Source) (i : Nat) : Option Nat := s.starts[i]?

/-- The line and the column of a byte. Within a character, and past the end, where there is no
stretch of the line up to it, the column counts bytes. -/
def lineColumn (s : Source) (offset : Nat) : Nat × Nat :=
  let line := bisect (fun i => s.starts[i]?.any (· ≤ offset)) 0 s.starts.size - 1
  let start := s.starts[line]?.getD 0
  let stop := min offset (Text.width s.content)
  let column :=
    match Text.slice? s.content start stop with
    | some before => before.length
    | none => stop - start
  (line + 1, column + 1)

/-- The stretch between two bytes. -/
def extract (s : Source) (start stop : Nat) : Except SourceError Text :=
  if start > stop then .error (.invalidRange start stop)
  else if stop > Text.width s.content then .error (.outOfBounds (Text.width s.content) start stop)
  else
    match Text.slice? s.content start stop with
    | some t => .ok t
    | none => .error (.notCharBoundary start stop)

/-- The text of a line without its line break; lines count from one. -/
def lineAt (s : Source) (line : Nat) : Except SourceError Text :=
  if line = 0 then .error (.invalidLine line s.lineCount)
  else
    match s.lineStart? (line - 1) with
    | none => .error (.invalidLine line s.lineCount)
    | some start =>
      let stop := ((s.lineStart? line).map (· - 1)).getD (Text.width s.content)
      match Text.slice? s.content start stop with
      | some t => .ok t
      | none => .error (.notCharBoundary start stop)

/-- The lines, each with the byte at which it starts. -/
def lines (s : Source) : List (Nat × Text) := s.starts.toList.zip (Text.lines s.content)

/-- The source as it shows in a message. -/
def display (s : Source) : String :=
  "SourceFile \x7b name: " ++ Text.quotedString s.name ++ s!", line_count: {s.lineCount} " ++ "\x7d"

end Source

end DoomLex
