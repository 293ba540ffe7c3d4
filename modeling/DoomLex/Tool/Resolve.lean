/-
Which language a file is in, and in which form a report is written. A language named on the command
line comes first, then the overrides of the settings, then the names and extensions of files, then
the default of the settings. An override or default that names no language is an error only where it
is reached.
-/
import DoomLex.Language.Files
import DoomLex.Tool.Error

namespace DoomLex

/-! ## Forms of reports -/

/-- The form of a report. -/
inductive ReportForm where
  | text
  | json
deriving DecidableEq, Repr

/-- The name of a form. -/
def ReportForm.name : ReportForm → String
  | .text => "text"
  | .json => "json"

/-- The form of a name, in any case of ASCII letters. -/
def ReportForm.ofName (name : Text) : Except ToolError ReportForm :=
  let folded := Text.foldCase name
  if folded = "text".toList ∨ folded = "txt".toList then .ok .text
  else if folded = "json".toList then .ok .json
  else .error (.unknownFormat name)

/-- The form that the command line names, or else the settings. -/
def ReportForm.resolve (flag : Option Text) (configured : Text) : Except ToolError ReportForm :=
  ofName (flag.getD configured)

/-! ## Languages -/

namespace LexSettings

/-- The language that the settings name. -/
def languageOf (name : Text) : Except ToolError Language :=
  match Language.ofName? name with
  | some l => .ok l
  | none => .error (.unknownSetLanguage name)

/-- The language that an override gives to an extension. -/
def languageForExtension (s : LexSettings) (extension : Text) : Except ToolError (Option Language) :=
  match s.overrides.find? extension with
  | none => .ok none
  | some name => (languageOf name).map some

/-- The default language. -/
def fallback (s : LexSettings) : Except ToolError (Option Language) :=
  match s.defaultLanguage with
  | none => .ok none
  | some name => (languageOf name).map some

/-- The language that an override gives to a path. -/
def overriding (s : LexSettings) (p : Path) : Except ToolError (Option Language) :=
  match p.extension? with
  | none => .ok none
  | some extension => s.languageForExtension extension

/-- The language of the file at a path. -/
def resolve (s : LexSettings) (flag : Option Text) (p : Path) : Except ToolError Language :=
  match flag with
  | some name =>
    match Language.ofName? name with
    | some l => .ok l
    | none => .error (.unknownLanguage name)
  | none =>
    match s.overriding p with
    | .error e => .error e
    | .ok (some l) => .ok l
    | .ok none =>
      match Language.ofPath? p with
      | some l => .ok l
      | none =>
        match s.fallback with
        | .error e => .error e
        | .ok (some l) => .ok l
        | .ok none => .error (.undeterminedLanguage p)

/-- Whether the overrides or the names and extensions of files tell the language of a path. -/
def isKnownSource (s : LexSettings) (p : Path) : Bool :=
  (match s.overriding p with
    | .ok (some _) => true
    | _ => false) ||
  (Language.ofPath? p).isSome

end LexSettings

end DoomLex
