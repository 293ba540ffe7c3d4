/-
The dump of a file: its lines with their tokens and the state in which each line ends. Columns count
bytes from one; offsets count bytes from zero in the file.
-/
import DoomLex.Report.Columns
import DoomLex.Report.Json
import DoomLex.Text.Quoted
import DoomLex.Tool.Inputs

namespace DoomLex

/-- A token of a dump. -/
structure TokenRecord where
  kind : Kind
  text : Text
  column : Nat
  offset : Nat
  link : Bool
deriving DecidableEq, Repr

/-- A line of a dump. -/
structure LineRecord where
  number : Nat
  after : LineState
  tokens : List TokenRecord
deriving DecidableEq, Repr

/-- The dump of a file. -/
structure FileRecord where
  file : Path
  language : Language
  lines : List LineRecord
deriving DecidableEq, Repr

/-- What a dump is to show. -/
structure DumpOptions where
  language : Option Text
  format : Option Text
  /-- The one line to show, counted from one. -/
  line : Option Nat
  showWhitespace : Bool

namespace Dump

/-- The record of a token of a line that starts at a byte of the file. -/
def tokenRecord (start : Nat) (t : Token) : TokenRecord :=
  ⟨t.kind, t.text, t.start + 1, (t.shift start).offset, t.link⟩

/-- Whether a token is shown. -/
def shows (showWhitespace : Bool) (t : Token) : Bool := showWhitespace || t.kind.category != .whitespace

/-- The record of a line. -/
def lineRecord (showWhitespace : Bool) (number start : Nat) (line : Line) : LineRecord :=
  ⟨number, line.after, (line.tokens.filter (shows showWhitespace)).map (tokenRecord start)⟩

/-- The records of lines, the first of which has a number. -/
def lineRecords (showWhitespace : Bool) (number : Nat) : List (Nat × Line) → List LineRecord
  | [] => []
  | (start, line) :: rest =>
    lineRecord showWhitespace number start line :: lineRecords showWhitespace (number + 1) rest

/-- The records of a document, or of the one line asked for. -/
def ofDocument (showWhitespace : Bool) (line : Option Nat) (p : Path) (d : Document) :
    Except ToolError (List LineRecord) :=
  let all := lineRecords showWhitespace 1 d.placed
  match line with
  | none => .ok all
  | some n =>
    if n = 0 ∨ d.lineCount < n then .error (.noSuchLine n p d.lineCount)
    else .ok ((all.drop (n - 1)).take 1)

/-- The dump of a file. -/
def ofFile (fs : FileTree) (s : Settings) (o : DumpOptions) (p : Path) : Except ToolError FileRecord :=
  match fs.openSource s.lex o.language p with
  | .error e => .error e
  | .ok d =>
    match ofDocument (o.showWhitespace || s.output.showWhitespace) o.line p d with
    | .error e => .error e
    | .ok lines => .ok ⟨p, d.language, lines⟩

/-- The dumps of files, up to the first that fails. -/
def ofFiles (fs : FileTree) (s : Settings) (o : DumpOptions) (paths : List Path) :
    Except ToolError (List FileRecord) :=
  if paths = [] then .error .noInputs else paths.mapM (ofFile fs s o)

/-! ## Writing -/

/-- The line on a token. -/
def tokenLine (t : TokenRecord) : Text :=
  List.replicate 6 ' ' ++ padLeft 4 (Text.numeral t.column) ++ "  ".toList ++
    padRight 24 t.kind.name.toList ++ " ".toList ++ padRight 14 t.kind.category.name.toList ++ " ".toList ++
    Text.quoted t.text ++ (if t.link then "  [link]".toList else []) ++ ['\n']

/-- The lines on a line and its tokens. -/
def lineText (line : LineRecord) : Text :=
  padLeft 5 (Text.numeral line.number) ++ " | ".toList ++ line.after.name.toList ++ ['\n'] ++
    line.tokens.flatMap tokenLine

/-- The dump of a file for people. -/
def fileText (r : FileRecord) : Text :=
  "== ".toList ++ r.file.spelling ++ " (".toList ++ r.language.name.toList ++ ") ==\n".toList ++
    r.lines.flatMap lineText

/-- The record of a token. -/
def tokenJson (t : TokenRecord) : Json :=
  .object [
    ("kind".toList, .ofString t.kind.name),
    ("category".toList, .ofString t.kind.category.name),
    ("text".toList, .text t.text),
    ("column".toList, .number t.column),
    ("offset".toList, .number t.offset),
    ("hyperlink".toList, .bool t.link)]

/-- The record of a line. -/
def lineJson (line : LineRecord) : Json :=
  .object [
    ("line".toList, .number line.number),
    ("end_state".toList, .ofString line.after.name),
    ("tokens".toList, .array (line.tokens.map tokenJson))]

/-- The dump of a file for programs. -/
def fileJson (r : FileRecord) : Json :=
  .object [
    ("file".toList, .text r.file.spelling),
    ("language".toList, .ofString r.language.name),
    ("lines".toList, .array (r.lines.map lineJson))]

/-- Writes dumps in a form. -/
def render (form : ReportForm) (records : List FileRecord) : Text :=
  match form with
  | .text => records.flatMap fileText
  | .json => Json.document (.array (records.map fileJson))

/-- What a run that dumps files writes. -/
def run (fs : FileTree) (s : Settings) (o : DumpOptions) (paths : List Path) : Except ToolError Text :=
  match ofFiles fs s o paths with
  | .error e => .error e
  | .ok records => (ReportForm.resolve o.format s.output.format).map (render · records)

end Dump

end DoomLex
