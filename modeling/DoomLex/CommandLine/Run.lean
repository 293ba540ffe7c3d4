/-
Runs of the tool. A run reads its settings first; it answers with what it writes, what it reports,
the files as they are after it, and why it failed, if it did.
-/
import DoomLex.CommandLine.Event
import DoomLex.CommandLine.Manual
import DoomLex.Tool.Catalogue
import DoomLex.Tool.Tally

namespace DoomLex

/-- What a run leaves. -/
structure Outcome where
  /-- The files after the run. -/
  files : FileTree
  /-- What it writes. -/
  output : Text
  /-- What it reports. -/
  events : List Event
  /-- What it tells besides. -/
  notes : List Text
  failure : Option ToolError

namespace Outcome

/-- The outcome of a run that leaves the files as they are. -/
def ofText (fs : FileTree) (events : List Event) : Except ToolError Text → Outcome
  | .ok t => ⟨fs, t, events, [], none⟩
  | .error e => ⟨fs, [], events, [], some e⟩

/-- The outcome of a check, which fails after it has written its report. -/
def ofCheck (fs : FileTree) (events : List Event) : Except ToolError (Text × CheckSummary) → Outcome
  | .ok (t, summary) => ⟨fs, t, events, [], match Check.conclude summary with
    | .ok () => none
    | .error e => some e⟩
  | .error e => ⟨fs, [], events, [], some e⟩

/-- The outcome of giving a directory its settings. -/
def ofCreation (notes : List Text) : FileTree × Except ToolError Path → Outcome
  | (fs, .ok file) => ⟨fs, [], [.created file], notes, none⟩
  | (fs, .error e) => ⟨fs, [], [], notes, some e⟩

end Outcome

/-- What a run finds around it in an environment. -/
def Environment.surroundings (env : Environment) (files : FileTree) (processors : UInt32) : Surroundings :=
  ⟨files, env.home?, env.configHome?, processors⟩

/-- What the system lends to a run. -/
structure Means where
  device : Device := .sound
  pool : WorkerPool := .inOrder

namespace Invocation

/-- The paths that a run may look at. -/
def paths (i : Invocation) (s : Surroundings) : List Path :=
  i.settings.toList ++ SettingsFile.candidates s ++ i.request.paths

/-- Runs a request with settings. -/
def runWith (s : Surroundings) (means : Means) (settings : Settings) (verbose : Bool) : Request → Outcome
  | .tokens o files =>
    .ofText s.files (Event.ofDumps s.files settings o files) (Dump.run s.files settings o files)
  | .check o inputs =>
    .ofCheck s.files (Event.ofCheck s.files settings o inputs means.pool)
      (Check.run s.files settings o inputs means.pool)
  | .stats language format files =>
    .ofText s.files (Event.ofTallies s.files settings.lex language files)
      (Tally.run s.files settings language format files)
  | .languages keywords format => .ofText s.files [] (Catalogue.run settings keywords format)
  | .init path force =>
    let target := SettingsFile.target path
    let notes := if verbose && !s.files.isThere target then
      ["Creating directory: ".toList ++ target.spelling] else []
    .ofCreation notes (SettingsFile.create s.files s.processors path force means.device)

/-- Runs what is asked for. Details are reported only if the command line asks to tell more. -/
def run (i : Invocation) (s : Surroundings) (means : Means) : Outcome :=
  match SettingsFile.find s i.settings with
  | .error e => ⟨s.files, [], [], [], some e⟩
  | .ok settings =>
    let outcome := runWith s means settings (i.verbose || settings.verbose) i.request
    { outcome with events := outcome.events.filter fun e => i.verbose || e.weight != .debug }

end Invocation

/-- What the tool answers to a command line. -/
inductive Response where
  | misused (e : UsageError)
  | told (t : Text)
  | ran (colored : Bool) (o : Outcome)

namespace Response

/-- The number that the tool ends with. -/
def exitCode : Response → UInt32
  | misused _ => 2
  | told _ => 0
  | ran _ o => if o.failure.isSome then 1 else 0

/-- What the tool answers where the words of a command line are not read to their end. -/
def ofStop : Stop → Response
  | .misused e => .misused e
  | .version command => .told (Manual.version command)
  | .help command => .told (Manual.help command)

/-- What the tool answers to the words of a command line. -/
def ofWords (env : Environment) (files : FileTree) (processors : UInt32) (words : List Text)
    (means : optParam Means {}) : Response :=
  match Invocation.read env words with
  | .error stop => ofStop stop
  | .ok i => .ran i.colored (i.run (env.surroundings files processors) means)

end Response

end DoomLex
