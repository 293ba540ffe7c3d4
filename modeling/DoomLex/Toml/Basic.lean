/-
TOML documents: values, and tables as the statements of a document fill them. A table remembers what
brought it about, for that decides what may still be added to it.
-/
import DoomLex.Toml.Moment

namespace DoomLex

/-- What brought a table about. -/
inductive TableOrigin where
  /-- A header for a table within it. -/
  | implied
  /-- A dotted key for an entry of it. -/
  | dotted
  /-- A header of its own. -/
  | headed
  /-- Braces within a value. -/
  | braced
deriving DecidableEq, Repr

/-- A value of a document. -/
inductive Toml where
  | string (t : Text)
  | integer (i : Int)
  /-- A number with a fraction or an exponent, which no setting is. -/
  | float
  | boolean (b : Bool)
  | moment (m : Moment)
  | array (items : List Toml)
  | table (origin : TableOrigin) (entries : List (Text × Toml))
  /-- The tables of repeated headers. -/
  | tables (elements : List (List (Text × Toml)))

namespace Toml

/-- The bound of the integers of documents, which have 64 bits and a sign. -/
def integerBound : Nat := 9223372036854775808

/-- The entries of a table. -/
abbrev Entries := List (Text × Toml)

/-- The key under which a moment stands where a table is asked for. -/
def momentKey : Text := "$__toml_private_datetime".toList

/-- The entries of a value as a table. A moment counts as the table of its text alone. -/
def entries? : Toml → Option Entries
  | .table _ entries => some entries
  | .moment m => some [(momentKey, .string m.text)]
  | _ => none

/-- A statement of a document. -/
inductive Statement where
  /-- A value for a key. -/
  | pair (path : List Text) (value : Toml)
  /-- The header of a table. -/
  | header (path : List Text)
  /-- The header of one more table of an array. -/
  | repeatedHeader (path : List Text)

/-! ## Filling tables -/

/-- Writes an entry: in place of the one there, else at the end. -/
def setEntry (key : Text) (value : Toml) : Entries → Entries
  | [] => [(key, value)]
  | (k, v) :: rest => if k = key then (k, value) :: rest else (k, v) :: setEntry key value rest

/-- Changes the table at a path, making the tables that lead to it. Of repeated tables the last one
is meant. -/
def within (change : Entries → Option Entries) : List Text → Entries → Option Entries
  | [], entries => change entries
  | key :: path, entries =>
    match entries.lookup key with
    | none => (within change path []).map fun inner => setEntry key (.table .implied inner) entries
    | some (.table .braced _) => none
    | some (.table origin inner) =>
      (within change path inner).map fun inner => setEntry key (.table origin inner) entries
    | some (.tables elements) =>
      match elements.getLast? with
      | none => none
      | some last =>
        (within change path last).map fun last =>
          setEntry key (.tables (elements.dropLast ++ [last])) entries
    | some _ => none

/-- Gives the key at the end of a dotted path a value. The tables on the way may not have headers of
their own, and the last of them has to come from dotted keys. -/
def addPair (value : Toml) : List Text → Bool → Entries → Option Entries
  | [], _, _ => none
  | [key], mayEnd, entries =>
    if mayEnd && (entries.lookup key).isNone then some (setEntry key value entries) else none
  | key :: path, _, entries =>
    match entries.lookup key with
    | none => (addPair value path true []).map fun inner => setEntry key (.table .dotted inner) entries
    | some (.table .dotted inner) =>
      (addPair value path true inner).map fun inner => setEntry key (.table .dotted inner) entries
    | some (.table .implied inner) =>
      (addPair value path false inner).map fun inner => setEntry key (.table .implied inner) entries
    | some (.tables elements) =>
      match elements.getLast? with
      | none => none
      | some last =>
        (addPair value path false last).map fun last =>
          setEntry key (.tables (elements.dropLast ++ [last])) entries
    | some _ => none

/-- Opens the table of a header; it may have been implied, but not have come about otherwise. -/
def openTable (key : Text) (entries : Entries) : Option Entries :=
  match entries.lookup key with
  | none => some (setEntry key (.table .headed []) entries)
  | some (.table .implied inner) => some (setEntry key (.table .headed inner) entries)
  | some _ => none

/-- Opens one more table of a repeated header. -/
def openRepeated (key : Text) (entries : Entries) : Option Entries :=
  match entries.lookup key with
  | none => some (setEntry key (.tables [[]]) entries)
  | some (.tables elements) => some (setEntry key (.tables (elements ++ [[]])) entries)
  | some _ => none

/-- Fills the root table by statements; pairs go to the table at the path `current`. -/
def fill (current : List Text) (root : Entries) : List Statement → Option Entries
  | [] => some root
  | .pair path value :: rest =>
    match within (addPair value path true) current root with
    | none => none
    | some root => fill current root rest
  | .header path :: rest =>
    match path.getLast? with
    | none => none
    | some key =>
      match within (openTable key) path.dropLast root with
      | none => none
      | some root => fill path root rest
  | .repeatedHeader path :: rest =>
    match path.getLast? with
    | none => none
    | some key =>
      match within (openRepeated key) path.dropLast root with
      | none => none
      | some root => fill path root rest

end Toml

end DoomLex
