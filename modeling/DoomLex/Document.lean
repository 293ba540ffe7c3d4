/-
Documents that are edited line by line. A document keeps with every line the state it starts in, its
tokens and the state it ends in, and the places at which the lines start. An edit lexes lines anew from
its place on and stops at the first line that would start in the state it was last lexed with, for
nothing after that line can change; the places are counted anew after every edit.
-/
import DoomLex.Bisect
import DoomLex.Language

namespace DoomLex

/-- A line of a document, its tokens placed as in a document of its own. -/
structure Line where
  text : Text
  before : LineState
  tokens : List Token
  after : LineState
deriving DecidableEq, Repr

/-- Lexes a line that starts in a state. -/
def Line.lex (l : Language) (state : LineState) (t : Text) : Line :=
  let lexed := l.tokenize t state 0
  ⟨t, state, lexed.tokens, lexed.next⟩

/-- A document as its lines, lexed and placed. -/
structure Document where
  language : Language
  lines : List Line
  /-- The byte of the document at which each line starts. -/
  starts : List Nat
deriving DecidableEq, Repr

/-- There is no such line. -/
structure NoSuchLine where
  line : Nat
  lineCount : Nat
deriving DecidableEq, Repr

namespace Document

/-! ## Making and reading -/

/-- Lexes lines one after the other, each from the state in which the one before it ends. -/
def lexLines (l : Language) (state : LineState) : List Text → List Line
  | [] => []
  | t :: rest =>
    let line := Line.lex l state t
    line :: lexLines l line.after rest

/-- The bytes at which lines start, the first one at the given byte. -/
def startsFrom (offset : Nat) : List Line → List Nat
  | [] => []
  | line :: rest => offset :: startsFrom (offset + Text.width line.text + 1) rest

/-- The document of lexed lines, their places counted. -/
def index (l : Language) (lines : List Line) : Document := ⟨l, lines, startsFrom 0 lines⟩

/-- The document of a text. -/
def ofText (l : Language) (t : Text) : Document := index l (lexLines l l.initialState (Text.lines t))

/-- The number of lines. -/
def lineCount (d : Document) : Nat := d.lines.length

/-- The texts of the lines. -/
def texts (d : Document) : List Text := d.lines.map (·.text)

/-- The whole text. -/
def text (d : Document) : Text := Text.joinLines d.texts

/-- The text of a line. -/
def lineText? (d : Document) (i : Nat) : Option Text := d.lines[i]?.map (·.text)

/-- The state in which a line ends. -/
def stateAfter? (d : Document) (i : Nat) : Option LineState := d.lines[i]?.map (·.after)

/-- The state in which a line starts. -/
def stateBefore (d : Document) (i : Nat) : LineState :=
  match i with
  | 0 => d.language.initialState
  | i + 1 => ((d.lines[i]?).map (·.after)).getD d.language.initialState

/-- Each line with the byte of the document at which it starts. -/
def placed (d : Document) : List (Nat × Line) := d.starts.zip d.lines

/-- The byte of the document at which a line starts. -/
def lineStart? (d : Document) (i : Nat) : Option Nat := d.starts[i]?

/-- The tokens of a line at their places in the document. -/
def lineTokens? (d : Document) (i : Nat) : Option (List Token) :=
  d.placed[i]?.map fun (start, line) => line.tokens.map (·.shift start)

/-! ## Editing -/

/-- Lexes lines anew up to the first one that would start in the state it was lexed with, and counts
the lines lexed. -/
def relex (l : Language) (state : LineState) : List Line → List Line × Nat
  | [] => ([], 0)
  | line :: rest =>
    if line.before = state then (line :: rest, 0)
    else
      let line' := Line.lex l state line.text
      let (rest', count) := relex l line'.after rest
      (line' :: rest', count + 1)

/-- Puts a line of the given text before the lines `rest`, from the line `i` on, and lexes on. -/
def lexFrom (d : Document) (i : Nat) (t : Text) (rest : List Line) : Document × Nat :=
  let line := Line.lex d.language (d.stateBefore i) t
  let (rest', count) := relex d.language line.after rest
  (index d.language (d.lines.take i ++ line :: rest'), count + 1)

/-- Gives a line another text. The count of lines lexed comes with the document. -/
def replaceLine (d : Document) (i : Nat) (t : Text) : Except NoSuchLine (Document × Nat) :=
  if i < d.lineCount then .ok (d.lexFrom i t (d.lines.drop (i + 1))) else .error ⟨i, d.lineCount⟩

/-- Puts a new line before a line, or after the last one. -/
def insertLine (d : Document) (i : Nat) (t : Text) : Except NoSuchLine (Document × Nat) :=
  if i ≤ d.lineCount then .ok (d.lexFrom i t (d.lines.drop i)) else .error ⟨i, d.lineCount⟩

/-- Takes a line out; the only line is emptied instead. -/
def removeLine (d : Document) (i : Nat) : Except NoSuchLine (Document × Nat) :=
  if i < d.lineCount then
    if d.lineCount = 1 then .ok (d.lexFrom 0 [] [])
    else
      let (rest, count) := relex d.language (d.stateBefore i) (d.lines.drop (i + 1))
      .ok (index d.language (d.lines.take i ++ rest), count)
  else .error ⟨i, d.lineCount⟩

/-! ## Tokens in a range -/

/-- The tokens that share a byte with the range from `start` up to `stop` of the document; an empty
range counts as the one byte at its start. The search starts at the last line that starts at or
before the range and ends at the first one that starts after it. -/
def tokensInRange (d : Document) (start stop : Nat) : List Token :=
  let stop := max stop (start + 1)
  let starts := d.starts.toArray
  let first := bisect (fun i => starts[i]?.any (· ≤ start)) 0 starts.size - 1
  ((d.placed.drop first).takeWhile fun (offset, _) => offset < stop).flatMap fun (offset, line) =>
    (line.tokens.map (·.shift offset)).filter fun t => t.offset < stop && start < t.offsetStop

end Document

end DoomLex
