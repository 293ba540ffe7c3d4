/-
The check of files: the faults of their tokens, each with its line and column. Every file is checked
by itself, by one of a number of workers; one whose language cannot be told or that cannot be read is
counted as failed and does not touch the others. Of each file only so many faults are reported one by
one.
-/
import DoomLex.Report.Json
import DoomLex.Source
import DoomLex.Tool.Inputs
import DoomLex.Tool.Workers

namespace DoomLex

/-- A fault of a file. -/
structure Diagnostic where
  line : Nat
  /-- The column, in characters from one. -/
  column : Nat
  fault : Fault
  text : Text
deriving DecidableEq, Repr

/-- What is wrong, in words. -/
def Diagnostic.message (d : Diagnostic) : String := d.fault.message

/-- What the check of a file finds. -/
structure FileReport where
  file : Path
  language : Language
  /-- The first faults, as many as are to be reported. -/
  diagnostics : List Diagnostic
  /-- The number of all faults. -/
  faultCount : Nat
deriving DecidableEq, Repr

/-- The totals of a check. -/
structure CheckSummary where
  files : Nat
  failed : Nat
  faults : Nat
deriving DecidableEq, Repr

/-- What a check is asked for. -/
structure CheckOptions where
  language : Option Text
  jobs : Option UInt32
  format : Option Text

namespace Check

/-- The faults of a document, each with its token at its place in the document. -/
def faults (d : Document) : List (Fault × Token) :=
  d.placed.flatMap fun (start, line) =>
    line.tokens.filterMap fun t => t.kind.fault?.map fun f => (f, t.shift start)

/-- The report of a fault. -/
def diagnostic (source : Source) (e : Fault × Token) : Diagnostic :=
  let (line, column) := source.lineColumn e.2.offset
  ⟨line, column, e.1, e.2.text⟩

/-- The report of a text in a language. -/
def ofText (limit : Nat) (p : Path) (l : Language) (t : Text) : FileReport :=
  let found := faults (Document.ofText l t)
  ⟨p, l, (found.take limit).map (diagnostic (Source.ofText p.display t)), found.length⟩

/-- The report of a file. -/
def ofFile (fs : FileTree) (s : Settings) (language : Option Text) (p : Path) :
    Except ToolError FileReport :=
  match s.lex.resolve language p with
  | .error e => .error e
  | .ok l =>
    match fs.readSource p with
    | .error e => .error e
    | .ok t => .ok (ofText s.check.maxErrors.toNat p l t)

/-- The files of a check, each with its report or the reason why there is none. -/
abbrev Results := List (Path × Except ToolError FileReport)

/-- The number of workers of a check: one at least. -/
def workers (s : Settings) (o : CheckOptions) : Nat := (max 1 (o.jobs.getD s.check.jobs)).toNat

/-- The results of a list of files, which the workers of a pool share out. -/
def ofFiles (fs : FileTree) (s : Settings) (o : CheckOptions) (files : List Path) (pool : WorkerPool) :
    Except ToolError Results :=
  match pool.fault? (workers s o) with
  | some reason => .error (.noWorkers reason)
  | none => .ok (pool.map (workers s o) (fun p => (p, ofFile fs s o.language p)) files)

/-- The reports among results. -/
def reports (results : Results) : List FileReport :=
  results.filterMap fun
    | (_, .ok r) => some r
    | (_, .error _) => none

/-- The files without report among results. -/
def failures (results : Results) : List (Path × ToolError) :=
  results.filterMap fun
    | (p, .error e) => some (p, e)
    | (_, .ok _) => none

/-- The totals of results. -/
def summary (results : Results) : CheckSummary :=
  ⟨(reports results).length, (failures results).length, total (·.faultCount) (reports results)⟩

/-- A check succeeds if there is no fault and no file failed. -/
def conclude (s : CheckSummary) : Except ToolError Unit :=
  if 0 < s.faults ∨ 0 < s.failed then .error (.faultsFound s.faults s.files s.failed) else .ok ()

/-! ## Writing -/

/-- The line on a fault. -/
def diagnosticLine (file : Path) (d : Diagnostic) : Text :=
  file.spelling ++ ":".toList ++ Text.numeral d.line ++ ":".toList ++ Text.numeral d.column ++ ": ".toList ++
    d.message.toList ++ ": ".toList ++ d.text ++ ['\n']

/-- The line that counts the faults that are not reported one by one, if there are any. -/
def hiddenLine (r : FileReport) : Text :=
  let hidden := r.faultCount - r.diagnostics.length
  if 0 < hidden then
    r.file.spelling ++ ": ".toList ++ Text.numeral hidden ++ " more error token(s)\n".toList
  else []

/-- The report of a file for people. -/
def fileText (r : FileReport) : Text := r.diagnostics.flatMap (diagnosticLine r.file) ++ hiddenLine r

/-- The record of a fault. -/
def diagnosticJson (d : Diagnostic) : Json :=
  .object [
    ("line".toList, .number d.line),
    ("column".toList, .number d.column),
    ("message".toList, .ofString d.message),
    ("text".toList, .text d.text)]

/-- The report of a file for programs. -/
def fileJson (r : FileReport) : Json :=
  .object [
    ("file".toList, .text r.file.spelling),
    ("language".toList, .ofString r.language.name),
    ("diagnostics".toList, .array (r.diagnostics.map diagnosticJson)),
    ("error_count".toList, .number r.faultCount)]

/-- Writes reports in a form. -/
def render (form : ReportForm) (rs : List FileReport) : Text :=
  match form with
  | .text => rs.flatMap fileText
  | .json => Json.document (.array (rs.map fileJson))

/-- The form of the report and the results of a check. -/
def results (fs : FileTree) (s : Settings) (o : CheckOptions) (inputs : List Path)
    (pool : WorkerPool) : Except ToolError (ReportForm × Results) :=
  match ReportForm.resolve o.format s.output.format with
  | .error e => .error e
  | .ok form =>
    match fs.collect s.lex inputs with
    | .error e => .error e
    | .ok files =>
      match ofFiles fs s o files pool with
      | .error e => .error e
      | .ok rs => .ok (form, rs)

/-- What a check writes, and its totals. -/
def run (fs : FileTree) (s : Settings) (o : CheckOptions) (inputs : List Path)
    (pool : optParam WorkerPool .inOrder) : Except ToolError (Text × CheckSummary) :=
  match results fs s o inputs pool with
  | .error e => .error e
  | .ok (form, rs) => .ok (render form (reports rs), summary rs)

end Check

end DoomLex
