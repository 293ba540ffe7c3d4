/-
The two dialects with braces: patches (DECOHack) and scripts (RookScript, WadScript and DoomMake).
They differ in their punctuation, their operators and their words, in whether numbers take
exponents and literals the escape `\u`, and in the mark by which patches tell functions.
-/
import DoomLex.Alphabet
import DoomLex.Kind
import DoomLex.Text.Blank
import DoomLex.WordTable

namespace DoomLex

/-- A dialect with braces. -/
inductive Dialect where
  | patch
  | script
deriving DecidableEq, Repr

/-- A table of reserved words and of constants that are written as words. -/
def wordsOf (reserved : List String) (constants : List (String × Kind)) : WordTable Kind :=
  WordTable.ofList .insensitive
    (reserved.map (fun w => (w.toList, Kind.reservedWord)) ++ constants.map (fun e => (e.1.toList, e.2)))

/-! ## Patches -/

/-- Punctuation of patches that is a token of its own. -/
def patchSeparators : Alphabet := Alphabet.ofString "\x7b\x7d()"

/-- Characters of patches at which names and numbers end. -/
def patchDelimiters : Alphabet := Alphabet.ofString "\x7b\x7d(),.+-|:\"`/"

/-- The operators of patches. -/
def patchOperators : List Text := ["+", "-", "|"].map String.toList

/-- The reserved words and constants of patches. -/
def patchWords : WordTable Kind :=
  wordsOf
    ["using", "misc", "pars", "state", "sound", "strings", "weapon", "thing", "custom", "auto", "fill",
      "alias", "clear", "properties", "sounds", "states", "goto", "loop", "wait", "stop", "free",
      "protect", "unprotect", "each", "in", "to", "from", "with", "swap"]
    [("null", .decimal), ("true", .boolean), ("false", .boolean)]

/-! ## Scripts -/

/-- Punctuation of scripts that is a token of its own. -/
def scriptSeparators : Alphabet := Alphabet.ofString "[]\x7b\x7d()"

/-- Characters of scripts at which names and numbers end. -/
def scriptDelimiters : Alphabet := Alphabet.ofString "[]\x7b\x7d(),.!~+-*/%&|^=<>\"`:;?"

/-- The operators of scripts. -/
def scriptOperators : List Text :=
  ["+", "-", "!", "~", "*", "/", "%", "&", "&&", "|", "||", "^", "=", "==", "!=", "===", "!==", "<",
    ">", "<<", ">>", ">>>", "?", ":", "?:", "??", "+=", "-=", "*=", "/=", "%=", "&=", "|=", ">>=",
    "<<=", ">>>=", ";", "::", "->", ",", "."].map String.toList

/-- The reserved words and constants of scripts. -/
def scriptWords : WordTable Kind :=
  wordsOf
    ["if", "else", "return", "while", "for", "each", "entry", "function", "break", "continue", "check"]
    [("null", .decimal), ("true", .boolean), ("false", .boolean), ("infinity", .float), ("nan", .float)]

/-! ## What a dialect settles -/

namespace Dialect

/-- Punctuation that is a token of its own. -/
def separators : Dialect → Alphabet
  | patch => patchSeparators
  | script => scriptSeparators

/-- Characters at which names and numbers end. -/
def delimiters : Dialect → Alphabet
  | patch => patchDelimiters
  | script => scriptDelimiters

/-- The runs of punctuation that are operators. -/
def operators : Dialect → List Text
  | patch => patchOperators
  | script => scriptOperators

/-- Reserved words and constants. -/
def words : Dialect → WordTable Kind
  | patch => patchWords
  | script => scriptWords

/-- Whether numbers take exponents. -/
def exponents : Dialect → Bool
  | patch => false
  | script => true

/-- Whether literals take the escape `\u`. -/
def wideEscapes : Dialect → Bool
  | patch => false
  | script => true

/-- Whether a name that starts with `a_` in any case is a function. -/
def marksFunctions : Dialect → Bool
  | patch => true
  | script => false

/-- A blank or a delimiter. -/
def isBreak (d : Dialect) (c : Char) : Bool := Text.isBlank c || d.delimiters.contains c

/-- A character that carries a run of punctuation on: a delimiter that is no separator and starts
neither a literal nor a comment. -/
def extendsPunctuation (d : Dialect) (c : Char) : Bool :=
  d.delimiters.contains c && !d.separators.contains c && !(c == '"' || c == '`' || c == '/')

/-- The kind of a word. -/
def wordKind (d : Dialect) (word : Text) : Kind :=
  match d.words.get? word with
  | some kind => kind
  | none =>
    if d.marksFunctions && Text.foldCase (word.take 2) == ['a', '_'] then .function else .identifier

/-- The kind of a run of punctuation. -/
def punctuationKind (d : Dialect) (run : Text) : Kind :=
  if d.operators.contains run then .operator else .separator

end Dialect

end DoomLex
