/-
What the tool tells about itself: its version, how it is used, and how a command line is wrong.
-/
import DoomLex.CommandLine.Reading
import DoomLex.Report.Columns

namespace DoomLex

/-- The name of the tool. -/
def toolName : String := "dtkt"

namespace Switch

/-- What a switch does. -/
def description : Switch → String
  | verbose => "Enable verbose output"
  | config => "Path to configuration file"
  | noColor => "Disable color output"
  | help => "Print help"
  | version => "Print version"
  | language => "Language (default: detected from the file name)"
  | format => "Output format (text, json)"
  | line => "Only dump this line (1-based)"
  | showWhitespace => "Include whitespace tokens"
  | jobs => "Number of parallel jobs"
  | keywords => "Also list reserved words"
  | path => "Directory to write dtkt.toml into (default: current directory)"
  | force => "Overwrite an existing dtkt.toml"

/-- A switch as it is spelt. -/
def spelling (s : Switch) : Text :=
  (match s.letter? with
    | some c => ['-', c, ',', ' ']
    | none => List.replicate 4 ' ') ++ "--".toList ++ s.long.toList

end Switch

namespace UsageError

/-- The wording of an error. -/
def message : UsageError → String
  | noCommand => "a command is missing"
  | unknownCommand word => s!"there is no command '{String.ofList word}'"
  | unknownSwitch word => s!"there is no switch '{String.ofList word}' here"
  | unwantedValue s value => s!"'--{s.long}' takes no value, but is given '{String.ofList value}'"
  | missingValue s => s!"'--{s.long}' lacks its value"
  | badValue s value => s!"'--{s.long}' does not take '{String.ofList value}'"
  | repeated s => s!"'--{s.long}' is given more than once"
  | emptyInput => "a path is empty"
  | noInputs c => s!"'{c.name}' lacks its files"
  | unwantedInput word => s!"'{String.ofList word}' is out of place"
  | badVariable name value => s!"{name} may not be '{String.ofList value}'"

end UsageError

namespace Manual

/-- The line that tells the version. -/
def version : Option Command → Text
  | none => toolName.toList ++ " 0.1.0\n".toList
  | some c => toolName.toList ++ "-".toList ++ c.name.toList ++ " 0.1.0\n".toList

/-- A line of a list of words with what they stand for. -/
def entry (word : Text) (description : String) : Text :=
  "  ".toList ++ padRight 24 word ++ description.toList ++ ['\n']

/-- The lines on switches. -/
def switches (command : Option Command) : Text :=
  "\nOptions:\n".toList ++ (Switch.allowed command).flatMap fun s => entry s.spelling s.description

/-- How the tool or one of its commands is used. -/
def help : Option Command → Text
  | none =>
    "Inspect DoomTools sources through their lexers\n\n".toList ++
      "Usage: dtkt [OPTIONS] <COMMAND>\n\nCommands:\n".toList ++
      (Command.all.flatMap fun c => entry c.name.toList c.description) ++ switches none
  | some c =>
    c.description.toList ++ "\n\n".toList ++ c.help.toList ++ "\n\nUsage: dtkt ".toList ++ c.name.toList ++
      " [OPTIONS]".toList ++ (if c.takesInputs then " <FILES>...\n".toList else "\n".toList) ++
      switches (some c)

end Manual

end DoomLex
