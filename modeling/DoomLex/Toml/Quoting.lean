/-
Keys and strings of TOML documents, written and read. A string is written in the plainest of six
forms that can hold it: in one line between double quotes if nothing in it needs an escape, between
single quotes if they hold it, in three quotes of either sort, and only then with escapes. A reader
takes all forms.
-/
import DoomLex.Text.Digits

namespace DoomLex.Toml

/-! ## Writing -/

/-- A control character that only an escape can bring into a string. -/
def isCode (c : Char) : Bool := (c < ' ' && c != '\t' && c != '\n') || c == '\x7f'

/-- The length of the longest run of a character, where `current` of it came just before. -/
def longestRun (q : Char) (current : Nat) : Text → Nat
  | [] => current
  | c :: t => if c = q then longestRun q (current + 1) t else max current (longestRun q 0 t)

/-- Four hexadecimal digits, the letters as capitals. -/
def code4 (n : Nat) : Text := (Text.padded 16 4 n).map Char.toUpper

/-- How a character other than a quote stands between double quotes. -/
def escape (multi : Bool) (c : Char) : Text :=
  if c = '\x08' then ['\\', 'b']
  else if c = '\t' then ['\\', 't']
  else if c = '\n' then (if multi then ['\n'] else ['\\', 'n'])
  else if c = '\x0c' then ['\\', 'f']
  else if c = '\r' then ['\\', 'r']
  else if c = '\\' then ['\\', '\\']
  else if isCode c then ['\\', 'u'] ++ code4 c.toNat
  else [c]

/-- Text between double quotes, of which at most `free` in a row stand without escape; `run` of them
have just been written. -/
def escapeAll (multi : Bool) (free run : Nat) : Text → Text
  | [] => []
  | c :: t =>
    if c = '"' then
      if run < free then '"' :: escapeAll multi free (run + 1) t
      else ['\\', '"'] ++ escapeAll multi free 0 t
    else escape multi c ++ escapeAll multi free 0 t

/-- A line break at the start, which a reader drops, for a text that has one itself. -/
def leadBreak (t : Text) : Text := if t.contains '\n' then ['\n'] else []

/-- A string in one line between double quotes. -/
def inQuotes (t : Text) : Text := ['"'] ++ escapeAll false 0 0 t ++ ['"']

/-- A string between three double quotes. -/
def inTripleQuotes (t : Text) : Text :=
  ['"', '"', '"'] ++ leadBreak t ++ escapeAll true 2 0 t ++ ['"', '"', '"']

/-- A string between single quotes, which has no escapes. -/
def inSingleQuotes (t : Text) : Text := ['\''] ++ t ++ ['\'']

/-- A string between three single quotes, which has no escapes. -/
def inTripleSingleQuotes (t : Text) : Text :=
  ['\'', '\'', '\''] ++ leadBreak t ++ t ++ ['\'', '\'', '\'']

/-- A string in the plainest form that holds it. -/
def writeString (t : Text) : Text :=
  if t.any isCode then (if t.contains '\n' then inTripleQuotes t else inQuotes t)
  else if !t.contains '\\' && !t.contains '"' && !t.contains '\n' then inQuotes t
  else if !t.contains '\'' && !t.contains '\n' then inSingleQuotes t
  else if !t.contains '\\' && longestRun '"' 0 t ≤ 2 then inTripleQuotes t
  else if longestRun '\'' 0 t ≤ 2 then inTripleSingleQuotes t
  else if t.contains '\n' then inTripleQuotes t
  else inQuotes t

/-- A character of a key that needs no quotes. -/
def isBare (c : Char) : Bool := c.isAlphanum || c == '-' || c == '_'

/-- A key, in quotes only if it needs them. -/
def writeKey (t : Text) : Text :=
  if t ≠ [] ∧ t.all isBare then t
  else if !t.any (fun c => isCode c || c == '\n') && !t.contains '\\' && !t.contains '"' then inQuotes t
  else if !t.any (fun c => isCode c || c == '\n') && !t.contains '\'' then inSingleQuotes t
  else inQuotes t

/-! ## Reading -/

/-- The character of an escape letter. -/
def shortEscape? (c : Char) : Option Char :=
  if c = 'b' then some '\x08'
  else if c = 't' then some '\t'
  else if c = 'n' then some '\n'
  else if c = 'f' then some '\x0c'
  else if c = 'r' then some '\r'
  else if c = '"' then some '"'
  else if c = '\\' then some '\\'
  else none

/-- The character of a code point; surrogates and numbers past the last one have none. -/
def charOfCode? (n : Nat) : Option Char := if n.isValidChar then some (Char.ofNat n) else none

/-- Where between double quotes the reader stands. -/
inductive Spot where
  | plain
  /-- After a backslash. -/
  | escape
  /-- In a code that lacks that many digits. -/
  | code (missing value : Nat)
  /-- In the blanks after a backslash that drops a line break, and whether that has come. -/
  | fold (broken : Bool)
deriving DecidableEq, Repr

/-- Puts a character before the text that was read. -/
def push (c : Char) (r : Option (Text × Text)) : Option (Text × Text) :=
  r.map fun (t, rest) => (c :: t, rest)

/-- A carriage return that belongs to a line break. -/
def isBreakStart (c : Char) (t : Text) : Bool := c == '\r' && t.head? == some '\n'

/-- Reads on between double quotes, up to the closing quotes. -/
def readQuoted (multi : Bool) (spot : Spot) : Text → Option (Text × Text)
  | [] => none
  | c :: t =>
    let blank := c = ' ' ∨ c = '\t'
    let spot := if spot = .fold true ∧ ¬ (blank ∨ c = '\n' ∨ isBreakStart c t) then .plain else spot
    match spot with
    | .escape =>
      match shortEscape? c with
      | some d => push d (readQuoted multi .plain t)
      | none =>
        if c = 'u' then readQuoted multi (.code 4 0) t
        else if c = 'U' then readQuoted multi (.code 8 0) t
        else if multi ∧ c = '\n' then readQuoted multi (.fold true) t
        else if multi ∧ (blank ∨ isBreakStart c t) then readQuoted multi (.fold false) t
        else none
    | .code missing value =>
      if Text.isHexDigit c then
        let value := value * 16 + Text.digitValue c
        if 1 < missing then readQuoted multi (.code (missing - 1) value) t
        else
          match charOfCode? value with
          | some d => push d (readQuoted multi .plain t)
          | none => none
      else none
    | .fold broken =>
      if c = '\n' then readQuoted multi (.fold true) t
      else if blank ∨ isBreakStart c t then readQuoted multi (.fold broken) t
      else none
    | .plain =>
      if c = '\\' then readQuoted multi .escape t
      else if multi then
        if c = '"' ∧ t.take 2 = ['"', '"'] then
          let rest := t.drop 2
          let more := (rest.take 2).takeWhile (· == '"')
          some (more, rest.drop more.length)
        else if isBreakStart c t then readQuoted multi .plain t
        else if isCode c then none
        else push c (readQuoted multi .plain t)
      else if c = '"' then some ([], t)
      else if isCode c ∨ c = '\n' then none
      else push c (readQuoted multi .plain t)

/-- Reads on between single quotes, up to the closing quotes. -/
def readLiteral (multi : Bool) : Text → Option (Text × Text)
  | [] => none
  | c :: t =>
    if multi then
      if c = '\'' ∧ t.take 2 = ['\'', '\''] then
        let rest := t.drop 2
        let more := (rest.take 2).takeWhile (· == '\'')
        some (more, rest.drop more.length)
      else if isBreakStart c t then readLiteral multi t
      else if isCode c then none
      else push c (readLiteral multi t)
    else if c = '\'' then some ([], t)
    else if isCode c ∨ c = '\n' then none
    else push c (readLiteral multi t)

/-- Drops a line break at the start. -/
def dropBreak : Text → Text
  | '\n' :: t => t
  | '\r' :: '\n' :: t => t
  | t => t

/-- Reads a string of any form. -/
def readString (t : Text) : Option (Text × Text) :=
  if t.take 3 = ['"', '"', '"'] then readQuoted true .plain (dropBreak (t.drop 3))
  else if t.take 3 = ['\'', '\'', '\''] then readLiteral true (dropBreak (t.drop 3))
  else
    match t with
    | '"' :: rest => readQuoted false .plain rest
    | '\'' :: rest => readLiteral false rest
    | _ => none

/-- Reads a single key. -/
def readKey (t : Text) : Option (Text × Text) :=
  match t with
  | '"' :: rest => readQuoted false .plain rest
  | '\'' :: rest => readLiteral false rest
  | _ =>
    let key := t.takeWhile isBare
    if key = [] then none else some (key, t.dropWhile isBare)

end DoomLex.Toml
