/-
Settings as TOML documents. What a document leaves out has its default, what it holds besides
settings is passed over, and a setting of the wrong sort makes it no settings at all. A section may
also be an array of its settings in order.
-/
import DoomLex.Settings
import DoomLex.Toml.Quoting

namespace DoomLex.Settings

open Toml (Entries)

/-! ## Reading -/

/-- The settings of a section by their names. -/
def sectionEntries? (names : List String) : Toml → Option Entries
  | .array items => some ((names.map String.toList).zip items)
  | .tables elements => some ((names.map String.toList).zip (elements.map (.table .headed)))
  | v => v.entries?

/-- Reads a setting, or takes its default where it is left out. -/
def setting {α : Type} (entries : Entries) (name : String) (default : α) (value? : Toml → Option α) :
    Option α :=
  match entries.lookup name.toList with
  | none => some default
  | some v => value? v

/-- Reads a truth value. -/
def boolean? : Toml → Option Bool
  | .boolean b => some b
  | _ => none

/-- Reads a text. -/
def string? : Toml → Option Text
  | .string t => some t
  | _ => none

/-- Reads a whole number below a bound. -/
def natural? (bound : Nat) : Toml → Option Nat
  | .integer i => if 0 ≤ i ∧ i < bound then some i.toNat else none
  | _ => none

/-- Adds the names of languages that a table gives to extensions. -/
def overridesFrom (o : Overrides) : Entries → Option Overrides
  | [] => some o
  | (extension, v) :: rest => do overridesFrom (o.insert extension (← string? v)) rest

/-- Reads the languages of extensions. -/
def overrides? (v : Toml) : Option Overrides := v.entries?.bind (overridesFrom .empty)

/-- Reads the section on languages. -/
def lex? (default : LexSettings) (v : Toml) : Option LexSettings := do
  let entries ← sectionEntries? ["default_language", "extensions"] v
  let language ← setting entries "default_language" default.defaultLanguage fun v => (string? v).map some
  let overrides ← setting entries "extensions" default.overrides overrides?
  return ⟨language, overrides⟩

/-- Reads the section on reports. -/
def output? (default : OutputSettings) (v : Toml) : Option OutputSettings := do
  let entries ← sectionEntries? ["format", "show_whitespace"] v
  let format ← setting entries "format" default.format string?
  let showWhitespace ← setting entries "show_whitespace" default.showWhitespace boolean?
  return ⟨format, showWhitespace⟩

/-- Reads the section on checks. -/
def check? (default : CheckSettings) (v : Toml) : Option CheckSettings := do
  let entries ← sectionEntries? ["jobs", "max_errors_per_file"] v
  let jobs ← setting entries "jobs" default.jobs fun v => (natural? UInt32.size v).map UInt32.ofNat
  let maxErrors ← setting entries "max_errors_per_file" default.maxErrors fun v =>
    (natural? UInt64.size v).map UInt64.ofNat
  return ⟨jobs, maxErrors⟩

/-- The settings of the root table of a document, on a machine with so many processors. -/
def ofEntries? (processors : UInt32) (entries : Entries) : Option Settings := do
  let d := Settings.default processors
  let verbose ← setting entries "verbose" d.verbose boolean?
  let lex ← setting entries "lex" d.lex (lex? d.lex)
  let output ← setting entries "output" d.output (output? d.output)
  let check ← setting entries "check" d.check (check? d.check)
  return ⟨verbose, lex, output, check⟩

/-! ## Writing -/

/-- A line with a key and its value. -/
def pairLine (key value : Text) : Text := key ++ [' ', '=', ' '] ++ value ++ ['\n']

/-- A line with the header of a section, after an empty one. -/
def headerLine (name : String) : Text := ['\n', '['] ++ name.toList ++ [']', '\n']

/-- A truth value as it is written. -/
def booleanText (b : Bool) : Text := if b then "true".toList else "false".toList

/-- The document of the settings, if their numbers fit the integers of such documents. -/
def toDocument? (s : Settings) : Option Text :=
  if s.check.maxErrors.toNat < Toml.integerBound then
    some <|
      pairLine "verbose".toList (booleanText s.verbose) ++
      (match s.lex.defaultLanguage with
        | some l => headerLine "lex" ++ pairLine "default_language".toList (Toml.writeString l)
        | none => []) ++
      headerLine "lex.extensions" ++
      s.lex.overrides.entries.flatMap (fun e => pairLine (Toml.writeKey e.1) (Toml.writeString e.2)) ++
      headerLine "output" ++
      pairLine "format".toList (Toml.writeString s.output.format) ++
      pairLine "show_whitespace".toList (booleanText s.output.showWhitespace) ++
      headerLine "check" ++
      pairLine "jobs".toList (Text.numeral s.check.jobs.toNat) ++
      pairLine "max_errors_per_file".toList (Text.numeral s.check.maxErrors.toNat)
  else none

end DoomLex.Settings
