/-
Tokens: stretches of a text with their kind, their place in the text and their place in the
document. Runs become tokens by carving out the links in them and laying the pieces end to end.
-/
import DoomLex.Link
import DoomLex.Machine

namespace DoomLex

/-- A classified stretch of a text. -/
structure Token where
  kind : Kind
  text : Text
  /-- The byte at which it starts in its text. -/
  start : Nat
  /-- The byte at which it starts in the document. -/
  offset : Nat
  /-- Whether it is a link within a longer stretch. -/
  link : Bool
deriving DecidableEq, Repr

namespace Token

/-- The number of its bytes. -/
def width (t : Token) : Nat := Text.width t.text

/-- The byte after its last one in its text. -/
def stop (t : Token) : Nat := t.start + t.width

/-- Its last byte in its text. -/
def last (t : Token) : Nat := t.stop - 1

/-- The byte after its last one in the document. -/
def offsetStop (t : Token) : Nat := t.offset + t.width

/-- The token moved on in the document. -/
def shift (t : Token) (distance : Nat) : Token := { t with offset := t.offset + distance }

/-- The token moved on in its text and in the document. -/
def move (t : Token) (distance : Nat) : Token :=
  { t with start := t.start + distance, offset := t.offset + distance }

end Token

/-- The pieces of a run. -/
def Run.pieces (r : Run) : List Piece :=
  match r.kind.linkForm? with
  | some form => Link.carve form r.text
  | none => [⟨r.text, false⟩]

/-- Lays stretches end to end, the first one from byte `start` of a text that starts at byte `offset`
of the document. -/
def layOut (offset start : Nat) : List (Kind × Piece) → List Token
  | [] => []
  | (kind, piece) :: rest =>
    ⟨kind, piece.text, start, offset + start, piece.link⟩ ::
      layOut offset (start + Text.width piece.text) rest

/-- The tokens of the runs of a text that starts at byte `offset` of the document. -/
def tokensOf (offset : Nat) (runs : List Run) : List Token :=
  layOut offset 0 (runs.flatMap fun r => r.pieces.map fun p => (r.kind, p))

/-- The tokens of a text, and the state in which the next line starts. -/
structure Lexed where
  tokens : List Token
  next : LineState
deriving DecidableEq, Repr

end DoomLex
