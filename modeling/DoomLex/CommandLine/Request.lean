/-
What a command line asks for. A switch after the command counts before the same switch in front of
it, and both count before the variable of the environment; a variable has to fit wherever its switch
is left out.
-/
import DoomLex.CommandLine.Environment
import DoomLex.CommandLine.Reading
import DoomLex.Tool.Check
import DoomLex.Tool.Dump
import DoomLex.Tool.SettingsFile

namespace DoomLex

/-- A command with what it is asked for. -/
inductive Request where
  | tokens (o : DumpOptions) (files : List Path)
  | check (o : CheckOptions) (inputs : List Path)
  | stats (language format : Option Text) (files : List Path)
  | languages (keywords : Bool) (format : Option Text)
  | init (path : Option Path) (force : Bool)

/-- A request, and how it is to be run. -/
structure Invocation where
  verbose : Bool
  colored : Bool
  /-- The file with the settings. -/
  settings : Option Path
  request : Request

namespace Request

/-- The paths that a request names. -/
def paths : Request → List Path
  | tokens _ files | stats _ _ files => files
  | check _ inputs => inputs
  | languages _ _ => []
  | init path _ => [SettingsFile.target path]

end Request

namespace CommandLine

/-! ## The environment -/

/-- Whether a variable fits its switch. One without value is turned on and off by words. -/
def fits (s : Switch) (value : Text) : Bool :=
  if s.operand = .nothing then value == "true".toList || value == "false".toList
  else s.operand.admits value

/-- Whether a switch is in front of the command and after it. -/
def isOnBothSides (l : CommandLine) (s : Switch) : Bool :=
  (l.before.value? s).isSome && (l.after.value? s).isSome

/-- The value of the environment for a switch that does not fit where it is needed. -/
def misfit? (l : CommandLine) (env : Environment) (s : Switch) : Option UsageError := do
  let name ← s.environmentName?
  let value ← env.value? name
  if fits s value || l.isOnBothSides s then none else some (.badVariable name value)

/-! ## Values -/

/-- The value that the words give to a switch. -/
def value? (l : CommandLine) (s : Switch) : Option Text := (l.after.value? s).or (l.before.value? s)

/-- Whether a switch is on. -/
def isOn (l : CommandLine) (env : Environment) (s : Switch) : Bool :=
  (l.value? s).isSome || env.ofSwitch? s == some "true".toList

/-- The path that a switch is given. -/
def path? (l : CommandLine) (env : Environment) (s : Switch) : Option Path :=
  ((l.value? s).or (env.ofSwitch? s)).map Path.mk

/-- The request of a command line. -/
def request (l : CommandLine) (env : Environment) : Request :=
  let inputs := l.after.inputs.map Path.mk
  let language := l.value? .language
  let format := l.value? .format
  match l.command with
  | .tokens =>
    let line := (l.value? .line).bind Operand.lineNumber?
    .tokens ⟨language, format, line, l.isOn env .showWhitespace⟩ inputs
  | .check => .check ⟨language, (l.value? .jobs).bind Operand.jobCount?, format⟩ inputs
  | .stats => .stats language format inputs
  | .languages => .languages (l.isOn env .keywords) format
  | .init => .init (l.path? env .path) (l.isOn env .force)

/-- What a command line asks for in an environment. -/
def invocation (l : CommandLine) (env : Environment) : Except UsageError Invocation :=
  match [Switch.verbose, .config, .noColor].findSome? (l.misfit? env) with
  | some e => .error e
  | none =>
    if l.command.takesInputs && l.after.inputs.isEmpty then .error (.noInputs l.command)
    else
      .ok ⟨l.isOn env .verbose, !l.isOn env .noColor, l.path? env .config, l.request env⟩

end CommandLine

/-- Reads what is asked for. -/
def Invocation.read (env : Environment) (words : List Text) : Except Stop Invocation :=
  match CommandLine.read words with
  | .error e => .error e
  | .ok l => (l.invocation env).mapError .misused

end DoomLex
