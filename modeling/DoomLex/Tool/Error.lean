/-
What can go wrong in a run of the tool, apart from the texts it looks at: errors in the settings, in
the choice of files and languages, and on the files themselves. An error belongs to a group, which
starts its message.
-/
import DoomLex.FileTree
import DoomLex.Settings
import DoomLex.Text.Quoted

namespace DoomLex

/-- Why a run of the tool fails. -/
inductive ToolError where
  /-- The settings name a language that there is not. -/
  | unknownSetLanguage (name : Text)
  | settingsNotFound (path : Path)
  | malformedSettings
  /-- A number of the settings is too great for their file. -/
  | unwritableSettings
  | unreadableSource (path : Path) (fault : FileFault)
  | noSuchInput (path : Path)
  | uncreatableDirectory (path : Path) (fault : FileFault)
  /-- The command line names a language that there is not. -/
  | unknownLanguage (name : Text)
  | undeterminedLanguage (path : Path)
  | unknownFormat (name : Text)
  | noInputs
  | noSuchLine (line : Nat) (path : Path) (lineCount : Nat)
  | targetNotDirectory (path : Path)
  | settingsExist (path : Path)
  /-- The workers of a check could not be started. -/
  | noWorkers (reason : Text)
  /-- The check found faults, or could not look at some files. -/
  | faultsFound (faults files failed : Nat)
  | file (fault : FileFault)
deriving DecidableEq

/-- The sorts of errors. -/
inductive ErrorGroup where
  | config | fileOperation | validation | commandExecution | io
deriving DecidableEq, Repr

namespace ErrorGroup

/-- The name of a group where an error is shown with its parts. -/
def name : ErrorGroup → String
  | config => "Config"
  | fileOperation => "FileOperation"
  | validation => "Validation"
  | commandExecution => "CommandExecution"
  | io => "Io"

/-- The start of the messages of a group. -/
def opening : ErrorGroup → String
  | config => "Configuration error: "
  | fileOperation => "File operation failed: "
  | validation => "Validation error: "
  | commandExecution => "Command execution failed: "
  | io => "IO error: "

end ErrorGroup

/-- A text as a string. -/
def Text.toString (t : Text) : String := String.ofList t

namespace FileFault

/-- The fault shown with its parts. -/
def parts : FileFault → String
  | notFound => system 2 "NotFound" "No such file or directory"
  | notADirectory => system 20 "NotADirectory" "Not a directory"
  | isADirectory => system 21 "IsADirectory" "Is a directory"
  | alreadyExists => system 17 "AlreadyExists" "File exists"
  | nameTooLong => system 36 "InvalidFilename" "File name too long"
  | nulInPath => plain "InvalidInput" "file name contained an unexpected NUL byte"
  | notUtf8 => plain "InvalidData" "stream did not contain valid UTF-8"
  | noSpace => system 28 "StorageFull" "No space left on device"
  | fileTooLarge => system 27 "FileTooLarge" "File too large"
  | deviceError => system 5 "Uncategorized" "Input/output error"
where
  system (code : Nat) (kind message : String) : String :=
    s!"Os \x7b code: {code}, kind: {kind}, message: " ++ Text.quotedString message ++ " \x7d"
  plain (kind message : String) : String :=
    s!"Error \x7b kind: {kind}, message: " ++ Text.quotedString message ++ " \x7d"

end FileFault

namespace ToolError

/-- The group of an error. -/
def group : ToolError → ErrorGroup
  | unknownSetLanguage _ | settingsNotFound _ | malformedSettings | unwritableSettings => .config
  | unreadableSource _ _ | noSuchInput _ | uncreatableDirectory _ _ => .fileOperation
  | unknownLanguage _ | undeterminedLanguage _ | unknownFormat _ | noInputs | noSuchLine _ _ _
  | targetNotDirectory _ | settingsExist _ => .validation
  | noWorkers _ | faultsFound _ _ _ => .commandExecution
  | file _ => .io

/-- The message of an error after the opening of its group. -/
def detail : ToolError → String
  | unknownSetLanguage name => s!"unknown language '{name.toString}' in {settingsFileName}"
  | settingsNotFound path => s!"Configuration file not found: {path.display}"
  | malformedSettings => "Failed to parse configuration"
  | unwritableSettings => "Failed to serialize configuration: out-of-range value for u64 type"
  | unreadableSource path fault => s!"Failed to read {path.display}: {fault.message}"
  | noSuchInput path => s!"Input path does not exist: {path.display}"
  | uncreatableDirectory path fault => s!"Failed to create directory {path.display}: {fault.message}"
  | unknownLanguage name => s!"unknown language '{name.toString}'"
  | undeterminedLanguage path => s!"Cannot determine language for {path.display}"
  | unknownFormat name => s!"Unknown format: {name.toString}"
  | noInputs => "No input files specified"
  | noSuchLine line path lineCount =>
    s!"Line out of range: {line} ({path.display} has {lineCount} line(s))"
  | targetNotDirectory path => s!"Target path is not a directory: {path.display}"
  | settingsExist path => s!"Configuration file already exists (use --force): {path.display}"
  | noWorkers reason => s!"Failed to start worker pool: {reason.toString}"
  | faultsFound faults files failed =>
    s!"{faults} error token(s) in {files} file(s), {failed} file(s) failed"
  | file fault => fault.message

/-- The message of an error. -/
def message (e : ToolError) : String := e.group.opening ++ e.detail

/-- The error shown with its parts. -/
def parts (e : ToolError) : String :=
  let inner :=
    match e with
    | file fault => fault.parts
    | e => Text.quotedString e.detail
  e.group.name ++ "(" ++ inner ++ ")"

end ToolError

end DoomLex
