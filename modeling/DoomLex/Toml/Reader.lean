/-
Reading TOML documents: lines of keys with values and of headers, with comments and blank lines
between them, that together fill the root table.
-/
import DoomLex.Toml.Basic
import DoomLex.Toml.Quoting
import DoomLex.Toml.Scalar

namespace DoomLex.Toml

/-! ## Between things -/

/-- A blank within a line. -/
def isGap (c : Char) : Bool := c == ' ' || c == '\t'

/-- Drops the blanks at the start. -/
def skipGap (t : Text) : Text := t.dropWhile isGap

/-- Reads a line break. -/
def readBreak : Text → Option Text
  | '\n' :: t => some t
  | '\r' :: '\n' :: t => some t
  | _ => none

/-- What a comment at the start leaves, from the end of its line on; none if it holds a control
character. -/
def skipComment : Text → Option Text
  | '#' :: t =>
    let comment := t.takeWhile (fun c => !isCode c && c != '\n')
    let rest := t.drop comment.length
    if rest = [] ∨ (readBreak rest).isSome then some rest else none
  | t => some t

/-- Reads the rest of a line on which nothing but a comment may follow. -/
def readLineEnd (t : Text) : Option Text :=
  match skipComment (skipGap t) with
  | none => none
  | some [] => some []
  | some rest => readBreak rest

/-- Drops blanks, line breaks and comments, at most `n` characters. -/
def skipLines : Nat → Text → Option Text
  | 0, t => some t
  | n + 1, t =>
    match skipComment (skipGap t) with
    | none => none
    | some rest =>
      match readBreak rest with
      | some rest => skipLines n rest
      | none => some rest

/-! ## Keys and values -/

/-- Reads the keys of a dotted path; `n` bounds their number. -/
def readPath : Nat → Text → Option (List Text × Text)
  | 0, _ => none
  | n + 1, t =>
    match readKey (skipGap t) with
    | none => none
    | some (key, rest) =>
      match skipGap rest with
      | '.' :: rest => (readPath n rest).map fun (path, rest) => (key :: path, rest)
      | rest => some ([key], rest)

/-- The greatest number of keys in a path, and of values within values. -/
def maxDepth : Nat := 79

/-- Reads a key, an equals sign and a value. -/
def readPair (value : Text → Option (Toml × Text)) (t : Text) : Option ((List Text × Toml) × Text) :=
  match readPath maxDepth t with
  | some (path, '=' :: rest) => (value (skipGap rest)).map fun (v, rest) => ((path, v), rest)
  | _ => none

/-- Reads the values of an array after its bracket; `n` bounds their number. -/
def readItems (value : Text → Option (Toml × Text)) : Nat → Text → Option (List Toml × Text)
  | 0, _ => none
  | n + 1, t =>
    match skipLines t.length t with
    | none => none
    | some (']' :: rest) => some ([], rest)
    | some t =>
      match value t with
      | none => none
      | some (item, rest) =>
        match skipLines rest.length rest with
        | some (',' :: rest) => (readItems value n rest).map fun (items, rest) => (item :: items, rest)
        | some (']' :: rest) => some ([item], rest)
        | _ => none

/-- Reads the pairs of a table in braces after its first brace; `n` bounds their number. -/
def readFields (value : Text → Option (Toml × Text)) :
    Nat → Entries → Text → Option (Entries × Text)
  | 0, _, _ => none
  | n + 1, entries, t =>
    match readPair value (skipGap t) with
    | none => none
    | some ((path, v), rest) =>
      match addPair v path true entries with
      | none => none
      | some entries =>
        match skipGap rest with
        | ',' :: rest => readFields value n entries rest
        | '}' :: rest => some (entries, rest)
        | _ => none

/-- Reads a value with at most so many values around each other. -/
def readValue : Nat → Text → Option (Toml × Text)
  | 0, t =>
    match t with
    | '"' :: _ | '\'' :: _ => (readString t).map fun (s, rest) => (.string s, rest)
    | _ => readScalar t
  | depth + 1, t =>
    match t with
    | '"' :: _ | '\'' :: _ => (readString t).map fun (s, rest) => (.string s, rest)
    | '[' :: rest =>
      (readItems (readValue depth) rest.length rest).map fun (items, rest) => (.array items, rest)
    | '{' :: rest =>
      match skipGap rest with
      | '}' :: rest => some (.table .braced [], rest)
      | _ =>
        (readFields (readValue depth) rest.length [] rest).map fun (entries, rest) =>
          (.table .braced entries, rest)
    | _ => readScalar t

/-! ## Documents -/

/-- Reads a statement up to its line's end. -/
def readStatement (t : Text) : Option (Statement × Text) :=
  match t with
  | '[' :: '[' :: rest =>
    match readPath maxDepth rest with
    | some (path, ']' :: ']' :: rest) => (readLineEnd rest).map fun rest => (.repeatedHeader path, rest)
    | _ => none
  | '[' :: rest =>
    match readPath maxDepth rest with
    | some (path, ']' :: rest) => (readLineEnd rest).map fun rest => (.header path, rest)
    | _ => none
  | t =>
    match readPair (readValue maxDepth) t with
    | none => none
    | some ((path, v), rest) => (readLineEnd rest).map fun rest => (.pair path v, rest)

/-- Reads the statements of a document; `n` bounds their number. -/
def readStatements : Nat → Text → Option (List Statement)
  | 0, t => if t = [] then some [] else none
  | n + 1, t =>
    match skipLines t.length t with
    | none => none
    | some [] => some []
    | some t =>
      match readStatement t with
      | none => none
      | some (s, rest) => (readStatements n rest).map (s :: ·)

/-- The root table of a document; a byte order mark at its start counts for nothing. -/
def read (t : Text) : Option Entries :=
  let t := if t.head? = some '\ufeff' then t.drop 1 else t
  (readStatements t.length t).bind fun statements => fill [] [] statements

end DoomLex.Toml
