/-
The catalogue of languages: their names, the files that are known to be theirs, and the extensions
that the settings give them.
-/
import DoomLex.Report.Columns
import DoomLex.Report.Json
import DoomLex.Tool.Resolve

namespace DoomLex

/-- An entry of the catalogue. -/
structure LanguageEntry where
  language : Language
  /-- The extensions that the settings give to the language. -/
  configured : List Text
  /-- Its reserved words, where they are asked for. -/
  keywords : Option (List Text)
deriving DecidableEq, Repr

namespace Catalogue

/-- The extensions that overrides give to a language. -/
def configured (o : Overrides) (l : Language) : List Text :=
  (o.entries.filter fun e => Language.ofName? e.2 == some l).map (·.1)

/-- The entry of a language. -/
def entry (s : LexSettings) (withKeywords : Bool) (l : Language) : LanguageEntry :=
  ⟨l, configured s.overrides l, if withKeywords then some l.keywords else none⟩

/-- The entries of all languages. -/
def entries (s : LexSettings) (withKeywords : Bool) : List LanguageEntry :=
  Language.all.map (entry s withKeywords)

/-! ## Writing -/

/-- The patterns of the files of a language. -/
def patterns (e : LanguageEntry) : List Text :=
  e.language.extensions.map (fun x => "*.".toList ++ x.toList) ++ e.language.fileNames.map String.toList ++
    e.configured.map fun x => "*.".toList ++ x ++ " (config)".toList

/-- The entry of a language for people. -/
def entryText (e : LanguageEntry) : Text :=
  padRight 12 e.language.name.toList ++ " ".toList ++ padRight 12 e.language.displayName.toList ++
    " ".toList ++ padLeft 3 (Text.numeral e.language.kinds.length) ++ " kinds  ".toList ++
    ", ".toList.intercalate (patterns e) ++ ['\n'] ++
    match e.keywords with
    | some words => "    ".toList ++ " ".toList.intercalate words ++ ['\n']
    | none => []

/-- The entry of a language for programs. -/
def entryJson (e : LanguageEntry) : Json :=
  .object ([
    ("name".toList, .ofString e.language.name),
    ("display_name".toList, .ofString e.language.displayName),
    ("style".toList, .ofString e.language.style),
    ("extensions".toList, .array (e.language.extensions.map .ofString)),
    ("file_names".toList, .array (e.language.fileNames.map .ofString)),
    ("configured_extensions".toList, .array (e.configured.map .text)),
    ("kinds".toList, .number e.language.kinds.length)] ++
    match e.keywords with
    | some words => [("keywords".toList, .array (words.map .text))]
    | none => [])

/-- Writes the catalogue in a form. -/
def render (form : ReportForm) (es : List LanguageEntry) : Text :=
  match form with
  | .text => es.flatMap entryText
  | .json => Json.document (.array (es.map entryJson))

/-- What a run that lists the languages writes. -/
def run (s : Settings) (withKeywords : Bool) (format : Option Text) : Except ToolError Text :=
  (ReportForm.resolve format s.output.format).map (render · (entries s.lex withKeywords))

end Catalogue

end DoomLex
