/-
What a run of the tool reports while it works. Details are of interest only where a run is asked to
tell more.
-/
import DoomLex.CommandLine.Request

namespace DoomLex

/-- How much an event matters. -/
inductive Weight where
  | debug | info | warn
deriving DecidableEq, Repr

/-- The name of a weight. -/
def Weight.name : Weight → String
  | debug => "DEBUG"
  | info => "INFO"
  | warn => "WARN"

/-- Something that happens in a run. -/
inductive Event where
  | lexed (l : Language) (lineCount : Nat)
  | dumped (file : Path) (l : Language) (lineCount : Nat)
  | searched (directory : Path) (found : Nat)
  | checking (files jobs : Nat)
  | notChecked (file : Path) (reason : ToolError)
  | checked (files faults : Nat)
  | created (file : Path)
deriving DecidableEq

namespace Event

/-- How much an event matters. -/
def weight : Event → Weight
  | lexed _ _ | dumped _ _ _ | searched _ _ | checking _ _ => .debug
  | checked _ _ | created _ => .info
  | notChecked _ _ => .warn

/-- What an event says. -/
def wording : Event → String
  | lexed l lineCount => s!"lexed {l.displayName} document with {lineCount} lines"
  | dumped file l lineCount => s!"{file.display}: {lineCount} line(s) as {l.displayName}"
  | searched directory found => s!"{directory.display}: {found} candidate file(s)"
  | checking files jobs => s!"Checking {files} file(s) with {jobs} job(s)"
  | notChecked file reason => s!"checking {file.display}: {reason.message}"
  | checked files faults => s!"Checked {files} file(s): {faults} error token(s)"
  | created file => s!"Created {file.display}"

/-- What an event says, as it is shown on a terminal. -/
def message (e : Event) : String := Text.disarmedString e.wording

/-- The event of making the document of a file. -/
def ofDocument (d : Document) : Event := .lexed d.language d.lineCount

/-! ## The events of a run -/

/-- The events of dumping files, up to the first that fails. -/
def ofDumps (fs : FileTree) (s : Settings) (o : DumpOptions) : List Path → List Event
  | [] => []
  | file :: rest =>
    match fs.openSource s.lex o.language file with
    | .error _ => []
    | .ok d =>
      ofDocument d :: .dumped file d.language d.lineCount ::
        match Dump.ofFile fs s o file with
        | .error _ => []
        | .ok _ => ofDumps fs s o rest

/-- The events of counting the tokens of files, up to the first that fails. -/
def ofTallies (fs : FileTree) (s : LexSettings) (language : Option Text) : List Path → List Event
  | [] => []
  | file :: rest =>
    match fs.openSource s language file with
    | .error _ => []
    | .ok d => ofDocument d :: ofTallies fs s language rest

/-- The events of looking for the files of a check, up to the first input that there is not. -/
def ofSearch (fs : FileTree) (s : LexSettings) : List Path → List Event
  | [] => []
  | input :: rest =>
    if fs.isDirectory input then .searched input (fs.knownSources s input).length :: ofSearch fs s rest
    else if fs.isFile input then ofSearch fs s rest
    else []

/-- The events of checking files. The documents are made in the order in which the workers come to the
files. -/
def ofChecks (fs : FileTree) (s : Settings) (o : CheckOptions) (files : List Path) (pool : WorkerPool) :
    List Event :=
  let workers := Check.workers s o
  .checking files.length workers ::
    match Check.ofFiles fs s o files pool with
    | .error _ => []
    | .ok results =>
      let documents := (pool.order workers files.length).filterMap fun i =>
        files[i]?.bind fun p => (fs.openSource s.lex o.language p).toOption
      let summary := Check.summary results
      documents.map ofDocument ++ (Check.failures results).map (fun (p, e) => .notChecked p e) ++
        [.checked summary.files summary.faults]

/-- The events of a check. -/
def ofCheck (fs : FileTree) (s : Settings) (o : CheckOptions) (inputs : List Path) (pool : WorkerPool) :
    List Event :=
  match ReportForm.resolve o.format s.output.format with
  | .error _ => []
  | .ok _ =>
    ofSearch fs s.lex inputs ++
      match fs.collect s.lex inputs with
      | .error _ => []
      | .ok files => ofChecks fs s o files pool

end Event

end DoomLex
