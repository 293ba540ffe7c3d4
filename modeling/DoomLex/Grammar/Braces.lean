/-
The machine of the dialects with braces. Comments, directives and backquoted texts may run over
line breaks; literals end with their line. A directive goes on to the next line if it ends in a
backslash that no other backslash takes along, blanks after it apart.
-/
import DoomLex.Grammar.Dialect
import DoomLex.Grammar.Literal
import DoomLex.Grammar.Numeral
import DoomLex.Machine

namespace DoomLex.Braces

/-- Where in a comment between slashes and stars the scan stands. -/
inductive Block where
  /-- Just after the opening slash and star. -/
  | opened
  | plain
  /-- After a star in a plain comment. -/
  | plainStar
  | doc
  /-- After a star in a documentation comment. -/
  | docStar
deriving DecidableEq, Repr

/-- The comment with one more character; none if the character closes it. -/
def Block.step : Block → Char → Option Block
  | opened, c => if c = '*' then some docStar else some plain
  | plain, c => if c = '*' then some plainStar else some plain
  | plainStar, c => if c = '/' then none else if c = '*' then some plainStar else some plain
  | doc, c => if c = '*' then some docStar else some doc
  | docStar, c => if c = '/' then none else if c = '*' then some docStar else some doc

/-- The kind of a comment. -/
def Block.kind : Block → Kind
  | opened | plain | plainStar => .blockComment
  | doc | docStar => .docComment

/-- The state of a line that ends in the comment. -/
def Block.lineState : Block → LineState
  | opened | plain | plainStar => .blockComment
  | doc | docStar => .docComment

/-- A state of the machine. -/
inductive Scan where
  /-- Between tokens. -/
  | neutral
  | blank
  /-- In a directive. -/
  | directive
  /-- In a directive, after a backslash that may carry it on. -/
  | directiveCarried
  | backquote
  /-- After a slash that may start a comment. -/
  | slash
  | lineComment
  | block (b : Block)
  | literal (q : Literal)
  | punctuation
  | numeral (n : Numeral)
  | word
deriving DecidableEq, Repr

/-- The answer between tokens. -/
def start (d : Dialect) (c : Char) : Answer Scan :=
  if c = '#' then .take .directive
  else if Text.isBlank c then .take .blank
  else if c = '"' then .take (.literal .body)
  else if c = '`' then .take .backquote
  else if c = '/' then .take .slash
  else if d.separators.contains c then .close .separator .neutral
  else if d.delimiters.contains c then .take .punctuation
  else if c = '0' then .take (.numeral .zero)
  else if Text.isDigit c then .take (.numeral .decimal)
  else .take .word

/-- The answer to a character other than a line break. -/
def answer (d : Dialect) : Scan → Char → Answer Scan
  | .neutral, c => start d c
  | .blank, c => if Text.isBlank c then .take .blank else .cut .neutral
  | .directive, c => if c = '\\' then .take .directiveCarried else .take .directive
  | .directiveCarried, c => if Text.isBlank c then .take .directiveCarried else .take .directive
  | .backquote, c => if c = '`' then .close .backquote .neutral else .take .backquote
  | .slash, c =>
    if c = '*' then .take (.block .opened) else if c = '/' then .take .lineComment else .cut .neutral
  | .lineComment, _ => .take .lineComment
  | .block b, c =>
    match b.step c with
    | some b' => .take (.block b')
    | none => .close b.kind .neutral
  | .literal q, c =>
    match q.step d.wideEscapes c with
    | .stay q' => .take (.literal q')
    | .again q' => .again (.literal q')
    | .closed kind => .close kind .neutral
  | .punctuation, c => if d.extendsPunctuation c then .take .punctuation else .cut .neutral
  | .numeral n, c =>
    match n.step d c with
    | some n' => .take (.numeral n')
    | none => .cut .neutral
  | .word, c => if d.isBreak c then .cut .neutral else .take .word

/-- The kind of a pending run. -/
def label (d : Dialect) : Scan → Text → Kind
  | .neutral, _ | .blank, _ => .whitespace
  | .directive, _ | .directiveCarried, _ => .preprocessor
  | .backquote, _ => .backquote
  | .slash, _ => .operator
  | .lineComment, _ => .lineComment
  | .block b, _ => b.kind
  | .literal q, _ => q.openKind
  | .punctuation, run => d.punctuationKind run
  | .numeral n, _ => n.kind
  | .word, run => d.wordKind run

/-- The state at the start of a line. -/
def enter : LineState → Scan
  | .neutral => .neutral
  | .preprocessor => .directive
  | .backquote => .backquote
  | .blockComment => .block .plain
  | .docComment => .block .doc

/-- The state in which the next line starts. -/
def leave : Scan → LineState
  | .directiveCarried => .preprocessor
  | .backquote => .backquote
  | .block b => b.lineState
  | _ => .neutral

/-- The machine of a dialect. -/
def machine (d : Dialect) : Machine Scan where
  enter := enter
  answer := answer d
  label := label d
  lastLabel := label d
  leave := leave

end DoomLex.Braces
