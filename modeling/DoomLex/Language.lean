/-
The languages: their names, the files that are written in them, and their kinds of tokens with their
numeric codes. The three script languages share one lexer.
-/
import DoomLex.Grammar.Braces
import DoomLex.Grammar.MergeScript
import DoomLex.Grammar.SwitchList
import DoomLex.Grammar.TextureList
import DoomLex.Text.Case
import DoomLex.Token

namespace DoomLex

/-- A language. -/
inductive Language where
  | decoHack | rookScript | wadScript | doomMake | wadMerge | deuTex | defSwAni
deriving DecidableEq, Repr

namespace Language

/-- All languages, in the order in which they are searched and listed. -/
def all : List Language := [decoHack, rookScript, wadScript, doomMake, wadMerge, deuTex, defSwAni]

/-! ## Names -/

/-- The short name. -/
def name : Language → String
  | decoHack => "decohack"
  | rookScript => "rookscript"
  | wadScript => "wadscript"
  | doomMake => "doommake"
  | wadMerge => "wadmerge"
  | deuTex => "deutex"
  | defSwAni => "defswani"

/-- The name that people read. -/
def displayName : Language → String
  | decoHack => "DECOHack"
  | rookScript => "RookScript"
  | wadScript => "WadScript"
  | doomMake => "DoomMake"
  | wadMerge => "WadMerge"
  | deuTex => "DEUTex"
  | defSwAni => "DefSwAni"

/-- The key of the editor style. -/
def style (l : Language) : String := "text/" ++ l.name

/-- Further names. -/
def aliases : Language → List String
  | decoHack => ["dh", "deh"]
  | rookScript => ["rook", "rscript"]
  | wadScript => ["wscript", "wsx"]
  | doomMake => ["make"]
  | wadMerge => ["wadm"]
  | deuTex => ["texture", "textures"]
  | defSwAni => ["swanim", "swantbls"]

/-- Whether a name means the language, in any case of ASCII letters. -/
def hasName (l : Language) (wanted : Text) : Bool :=
  (l.name :: l.displayName :: l.aliases).any fun known => Text.sameFolded known.toList wanted

/-- The language that a name means, blanks around it apart. -/
def ofName? (name : Text) : Option Language := all.find? (·.hasName (Text.trim name))

/-! ## Files -/

/-- The extensions of its files, without the point. -/
def extensions : Language → List String
  | decoHack => ["dh"]
  | rookScript => ["rscript"]
  | wadScript => ["wscr", "wscript", "wsx"]
  | doomMake => ["script"]
  | wadMerge => ["wadmerge", "wadm"]
  | deuTex | defSwAni => []

/-- The names by which its files are known. -/
def fileNames : Language → List String
  | doomMake => ["doommake.script", "doommake-lib.script", "doommake-init.script"]
  | _ => []

/-- The language of files with an extension, in any case of ASCII letters. -/
def ofExtension? (extension : Text) : Option Language :=
  all.find? fun l => l.extensions.any fun known => Text.sameFolded known.toList extension

/-- The language of files with a name, in any case of ASCII letters. -/
def ofFileName? (fileName : Text) : Option Language :=
  all.find? fun l => l.fileNames.any fun known => Text.sameFolded known.toList fileName

/-! ## Kinds and words -/

/-- Its kinds of tokens, in the order of their codes. -/
def kinds : Language → List Kind
  | decoHack =>
    [.whitespace, .lineComment, .blockComment, .docComment, .preprocessor, .reservedWord, .identifier,
      .function, .operator, .separator, .decimal, .hex, .float, .boolean, .string, .backquote,
      .errorNumber, .errorString, .errorEscape, .errorIdentifier]
  | rookScript | wadScript | doomMake =>
    [.whitespace, .lineComment, .blockComment, .docComment, .preprocessor, .reservedWord, .identifier,
      .operator, .separator, .decimal, .hex, .float, .boolean, .string, .backquote, .errorNumber,
      .errorString, .errorEscape, .errorIdentifier]
  | wadMerge =>
    [.whitespace, .lineComment, .reservedWord, .identifier, .argument, .decimal, .string, .errorString,
      .errorEscape]
  | deuTex =>
    [.whitespace, .lineComment, .patchMarker, .decimal, .textureName, .patchName, .errorNumber,
      .errorIdentifier]
  | defSwAni => [.whitespace, .lineComment, .reservedWord, .identifier, .decimal]

/-- The code of its first kind. -/
def firstCode : Language → Nat
  | decoHack => 100
  | rookScript | wadScript | doomMake => 200
  | wadMerge => 300
  | deuTex => 400
  | defSwAni => 500

/-- The code of a kind. -/
def code (l : Language) (k : Kind) : Nat := l.firstCode + l.kinds.idxOf k

/-- Its reserved words and constants. -/
def words : Language → WordTable Kind
  | decoHack => Dialect.patch.words
  | rookScript | wadScript | doomMake => Dialect.script.words
  | wadMerge => MergeScript.words
  | deuTex => WordTable.empty .insensitive
  | defSwAni => SwitchList.words

/-- Its reserved words in order. -/
def keywords (l : Language) : List Text :=
  (l.words.sorted.filter fun e => e.2.category == .reservedWord).map (·.1)

/-! ## Lexing -/

/-- The state in which a document starts. -/
def initialState (_ : Language) : LineState := .neutral

/-- The runs of a text that starts in a line state, and the state in which the next line starts. A
state that the language does not have counts as neutral. -/
def scan (l : Language) (state : LineState) (t : Text) : List Run × LineState :=
  match l with
  | decoHack => (Braces.machine .patch).scan state t
  | rookScript | wadScript | doomMake => (Braces.machine .script).scan state t
  | wadMerge => MergeScript.machine.scan state t
  | deuTex => TextureList.machine.scan state t
  | defSwAni => SwitchList.machine.scan state t

/-- The tokens of a text that starts in a line state and at byte `offset` of the document. -/
def tokenize (l : Language) (t : Text) (state : LineState) (offset : Nat) : Lexed :=
  let (runs, next) := l.scan state t
  ⟨tokensOf offset runs, next⟩

end Language

end DoomLex
