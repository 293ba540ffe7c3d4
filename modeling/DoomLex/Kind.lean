/-
The kinds of tokens. All languages draw on one stock of kinds; which of them a language has, and
their numeric codes, is settled with the languages. A kind belongs to a category of highlighting,
may stand for a fault in the text, and may be searched for links.
-/

namespace DoomLex

/-! ## Categories, faults and forms of links -/

/-- A class of highlighting, the same for all languages. -/
inductive Category where
  | whitespace | comment | docComment | preprocessor | reservedWord | identifier | function
  | operator | separator | number | boolean | string | argument | error
deriving DecidableEq, Repr

/-- The name of a category in reports. -/
def Category.name : Category → String
  | .whitespace => "whitespace"
  | .comment => "comment"
  | .docComment => "doc-comment"
  | .preprocessor => "preprocessor"
  | .reservedWord => "reserved-word"
  | .identifier => "identifier"
  | .function => "function"
  | .operator => "operator"
  | .separator => "separator"
  | .number => "number"
  | .boolean => "boolean"
  | .string => "string"
  | .argument => "variable"
  | .error => "error"

/-- What is wrong with the text of an error token. -/
inductive Fault where
  | malformedNumber | unterminatedString | badIdentifier | badEscape
deriving DecidableEq, Repr

/-- The wording of a fault in reports. -/
def Fault.message : Fault → String
  | .malformedNumber => "malformed number"
  | .unterminatedString => "unterminated string"
  | .badIdentifier => "unrecognized identifier character"
  | .badEscape => "bad escape sequence"

/-- What counts as a link in the text of a token. -/
inductive LinkForm where
  /-- An address with one of the schemes `http`, `https`, `ftp` and `file`. -/
  | url
  /-- The path between the outer double quotes of a line. -/
  | quotedPath
deriving DecidableEq, Repr

/-- The name of a form of links. -/
def LinkForm.name : LinkForm → String
  | .url => "Url"
  | .quotedPath => "QuotedPath"

/-! ## Kinds -/

/-- What a token is. -/
inductive Kind where
  | whitespace | lineComment | blockComment | docComment | preprocessor | reservedWord | identifier
  | function | argument | operator | separator | patchMarker | decimal | hex | float | boolean
  | string | backquote | textureName | patchName | errorNumber | errorString | errorEscape
  | errorIdentifier
deriving DecidableEq, Repr

namespace Kind

/-- The name of a kind in token dumps. -/
def name : Kind → String
  | whitespace => "Whitespace"
  | lineComment => "CommentEol"
  | blockComment => "CommentMultiline"
  | docComment => "CommentDoc"
  | preprocessor => "Preprocessor"
  | reservedWord => "ReservedWord"
  | identifier => "Identifier"
  | function => "Function"
  | argument => "Variable"
  | operator => "Operator"
  | separator => "Separator"
  | patchMarker => "PatchMarker"
  | decimal => "NumberDecimal"
  | hex => "NumberHex"
  | float => "NumberFloat"
  | boolean => "Boolean"
  | string => "String"
  | backquote => "Backquote"
  | textureName => "TextureName"
  | patchName => "PatchName"
  | errorNumber => "ErrorNumber"
  | errorString => "ErrorString"
  | errorEscape => "ErrorEscape"
  | errorIdentifier => "ErrorIdentifier"

/-- The category of a kind. -/
def category : Kind → Category
  | whitespace => .whitespace
  | lineComment | blockComment => .comment
  | docComment => .docComment
  | preprocessor => .preprocessor
  | reservedWord => .reservedWord
  | identifier | textureName | patchName => .identifier
  | function => .function
  | argument => .argument
  | operator | patchMarker => .operator
  | separator => .separator
  | decimal | hex | float => .number
  | boolean => .boolean
  | string | backquote => .string
  | errorNumber | errorString | errorEscape | errorIdentifier => .error

/-- The fault that a kind stands for. -/
def fault? : Kind → Option Fault
  | errorNumber => some .malformedNumber
  | errorString => some .unterminatedString
  | errorEscape => some .badEscape
  | errorIdentifier => some .badIdentifier
  | _ => none

/-- The form of links that tokens of a kind are searched for. -/
def linkForm? : Kind → Option LinkForm
  | preprocessor => some .quotedPath
  | lineComment | blockComment | docComment | string | backquote => some .url
  | _ => none

/-- Whether a kind is of the category of errors. -/
def isError (k : Kind) : Bool := k.category == .error

theorem isError_iff_fault {k : Kind} : k.isError = true ↔ k.fault?.isSome = true := by
  cases k <;> decide

end Kind

end DoomLex
