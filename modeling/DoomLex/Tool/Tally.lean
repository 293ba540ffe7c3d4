/-
The counts of a file: its lines, its tokens, and how many tokens there are of each kind, the kinds in
the order in which they first appear.
-/
import DoomLex.Report.Columns
import DoomLex.Report.Json
import DoomLex.Tool.Inputs

namespace DoomLex

/-- The counts of a file. -/
structure FileTally where
  file : Path
  language : Language
  lineCount : Nat
  kinds : List (Kind × Nat)
deriving DecidableEq, Repr

namespace FileTally

/-- The number of tokens. -/
def tokenCount (t : FileTally) : Nat := total (·.2) t.kinds

end FileTally

namespace Tally

/-- Counts one more of a kind. -/
def count (k : Kind) : List (Kind × Nat) → List (Kind × Nat)
  | [] => [(k, 1)]
  | (k', n) :: rest => if k' = k then (k', n + 1) :: rest else (k', n) :: count k rest

/-- The counts of the kinds of tokens. -/
def countKinds (tokens : List Token) : List (Kind × Nat) :=
  tokens.foldl (fun counts t => count t.kind counts) []

/-- The counts of a document. -/
def ofDocument (p : Path) (d : Document) : FileTally :=
  ⟨p, d.language, d.lineCount, countKinds (d.lines.flatMap (·.tokens))⟩

/-- The counts of a file. -/
def ofFile (fs : FileTree) (s : LexSettings) (language : Option Text) (p : Path) :
    Except ToolError FileTally :=
  match fs.openSource s language p with
  | .error e => .error e
  | .ok d => .ok (ofDocument p d)

/-- The counts of files, up to the first that fails. -/
def ofFiles (fs : FileTree) (s : LexSettings) (language : Option Text) (paths : List Path) :
    Except ToolError (List FileTally) :=
  if paths = [] then .error .noInputs else paths.mapM (ofFile fs s language)

/-! ## Writing -/

/-- The line on a kind. -/
def kindLine (entry : Kind × Nat) : Text :=
  "  ".toList ++ padRight 24 entry.1.name.toList ++ " ".toList ++ padLeft 8 (Text.numeral entry.2) ++ ['\n']

/-- The counts of a file for people. -/
def fileText (t : FileTally) : Text :=
  t.file.spelling ++ " (".toList ++ t.language.name.toList ++ "): ".toList ++ Text.numeral t.lineCount ++
    " line(s), ".toList ++ Text.numeral t.tokenCount ++ " token(s)\n".toList ++ t.kinds.flatMap kindLine

/-- The counts of a file for programs. -/
def fileJson (t : FileTally) : Json :=
  .object [
    ("file".toList, .text t.file.spelling),
    ("language".toList, .ofString t.language.name),
    ("lines".toList, .number t.lineCount),
    ("tokens".toList, .number t.tokenCount),
    ("kinds".toList, .object (t.kinds.map fun (k, n) => (k.name.toList, .number n)))]

/-- Writes counts in a form. -/
def render (form : ReportForm) (tallies : List FileTally) : Text :=
  match form with
  | .text => tallies.flatMap fileText
  | .json => Json.document (.array (tallies.map fileJson))

/-- What a run that counts tokens writes. -/
def run (fs : FileTree) (s : Settings) (language format : Option Text) (paths : List Path) :
    Except ToolError Text :=
  match ofFiles fs s.lex language paths with
  | .error e => .error e
  | .ok tallies => (ReportForm.resolve format s.output.format).map (render · tallies)

end Tally

end DoomLex
