/-
The commands of the tool and what they are for.
-/
import DoomLex.Text.Basic

namespace DoomLex

/-- A command. -/
inductive Command where
  | tokens | check | stats | languages | init
deriving DecidableEq, Repr

namespace Command

/-- All commands, in the order in which they are listed. -/
def all : List Command := [tokens, check, stats, languages, init]

/-- The word that asks for a command. -/
def name : Command → String
  | tokens => "tokens"
  | check => "check"
  | stats => "stats"
  | languages => "languages"
  | init => "init"

/-- The command that a word asks for. -/
def ofName? (word : Text) : Option Command := all.find? fun c => c.name.toList == word

/-- Whether a command works on files that are named after it. -/
def takesInputs : Command → Bool
  | tokens | check | stats => true
  | languages | init => false

/-- What a command is for, in a line. -/
def description : Command → String
  | tokens => "Dump the token stream of source files"
  | check => "Report lexical errors in source files"
  | stats => "Count tokens per kind"
  | languages => "List supported languages"
  | init => "Write a default dtkt.toml"

/-- What a command does. -/
def help : Command → String
  | tokens =>
    "Lexes each file line by line and prints every token with its kind, category, column, document " ++
      "offset and hyperlink flag, plus the state each line hands to the next."
  | check =>
    "Lexes every file (directories are searched one level deep for known extensions) in parallel and " ++
      "prints each error token as path:line:column: message: text. Exits with failure if any were found."
  | stats =>
    "Lexes each file and prints how many tokens of each kind it holds, listing kinds in the order they " ++
      "first appear."
  | languages =>
    "Prints every registered language with its extensions, well-known file names and number of token kinds."
  | init =>
    "Creates a dtkt.toml with every setting at its default value in the specified or current directory. " ++
      "An existing file is kept unless --force is given."

end Command

end DoomLex
