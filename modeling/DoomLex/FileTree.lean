/-
A tree of files, and what the operations on it answer to a path. A path is followed name by name:
each step but the last has to lead from a directory, a dot stays, two dots go up. The tree maps
places, lists of names from the root, to what is there. What becomes of a text that is written to a
file is up to the device that holds it.
-/
import DoomLex.Path

namespace DoomLex

/-- What a file holds. -/
inductive Content where
  | text (t : Text)
  /-- Bytes that are not the UTF-8 form of a text. -/
  | binary (bytes : List UInt8)
deriving DecidableEq, Repr

/-- What is at a place. -/
inductive Node where
  | file (content : Content)
  | directory
deriving DecidableEq, Repr

/-- Why an operation on files fails. -/
inductive FileFault where
  | notFound | notADirectory | isADirectory | alreadyExists | nameTooLong
  /-- The path holds the character NUL, with which the system ends paths. -/
  | nulInPath
  | notUtf8
  /-- The device is full. -/
  | noSpace
  | fileTooLarge
  /-- The device fails. -/
  | deviceError
deriving DecidableEq, Repr

/-- The wording of a fault. -/
def FileFault.message : FileFault → String
  | .notFound => "No such file or directory (os error 2)"
  | .notADirectory => "Not a directory (os error 20)"
  | .isADirectory => "Is a directory (os error 21)"
  | .alreadyExists => "File exists (os error 17)"
  | .nameTooLong => "File name too long (os error 36)"
  | .nulInPath => "file name contained an unexpected NUL byte"
  | .notUtf8 => "stream did not contain valid UTF-8"
  | .noSpace => "No space left on device (os error 28)"
  | .fileTooLarge => "File too large (os error 27)"
  | .deviceError => "Input/output error (os error 5)"

/-- Where something is: the names from the root to it. -/
abbrev Place := List Text

/-- What becomes of a text that is written to an open file. -/
inductive Intake where
  | whole
  /-- The device fails after so many bytes. -/
  | cut (bytes : Nat) (fault : FileFault)
deriving DecidableEq, Repr

/-- A device that files are on: what it takes of a text for the file at a place. -/
abbrev Device := Place → Text → Intake

/-- The device that takes every text; it is meant where none is named. -/
def Device.sound : Device := fun _ _ => .whole

/-- What a file holds after so many bytes of a text. -/
def Content.front (t : Text) (bytes : Nat) : Content :=
  if Text.width t ≤ bytes then .text t
  else
    match t.splitAt? bytes with
    | some (front, _) => .text front
    | none => .binary ((t.flatMap String.utf8EncodeChar).take bytes)

/-- The files, and the directory in which relative paths start. -/
structure FileTree where
  here : Place
  nodes : List (Place × Node)
deriving DecidableEq, Repr

/-- A step along a path. -/
inductive Step where
  | stay
  | up
  | down (name : Text)
deriving DecidableEq, Repr

/-- The greatest number of bytes in a name. -/
def maxNameWidth : Nat := 255

/-- The greatest number of bytes in a path. -/
def maxPathWidth : Nat := 4095

/-- Whether a step is down to a name with too many bytes. -/
def Step.isTooLong : Step → Bool
  | .down name => maxNameWidth < Text.width name
  | .stay | .up => false

namespace Path

/-- The steps of a path, a slash at its end apart. -/
def steps (p : Path) : List Step :=
  (p.spelling.splitOn '/').filterMap fun t =>
    if t = [] then none
    else if t = ['.'] then some .stay
    else if t = ['.', '.'] then some .up
    else some (.down t)

/-- Whether a slash ends the path, so that it can only mean a directory. -/
def endsInSlash (p : Path) : Bool := p.spelling.getLast? == some '/'

/-- Why a path leads nowhere, whatever files there are. -/
def fault? (p : Path) : Option FileFault :=
  if p.spelling.contains '\x00' then some .nulInPath
  else if p.spelling = [] then some .notFound
  else if maxPathWidth < Text.width p.spelling then some .nameTooLong
  else none

end Path

namespace FileTree

/-! ## Places -/

/-- What is at a place; the root is always a directory. -/
def node? (fs : FileTree) (place : Place) : Option Node :=
  if place = [] then some .directory else fs.nodes.lookup place

/-- Puts something at a place, in place of what is there. -/
def put (fs : FileTree) (place : Place) (node : Node) : FileTree :=
  { fs with nodes := (place, node) :: fs.nodes.filter (·.1 ≠ place) }

/-- Whether a place is a directory, as it has to be to lead on. -/
def requireDirectory (fs : FileTree) (place : Place) : Except FileFault Unit :=
  match fs.node? place with
  | none => .error .notFound
  | some (.file _) => .error .notADirectory
  | some .directory => .ok ()

/-- The place that a step leads to. -/
def move (place : Place) : Step → Place
  | .stay => place
  | .up => place.dropLast
  | .down name => place ++ [name]

/-- Follows steps from a place; nothing has to be at the last one's end. -/
def follow (fs : FileTree) : Place → List Step → Except FileFault Place
  | place, [] => .ok place
  | place, s :: rest =>
    match fs.requireDirectory place with
    | .error e => .error e
    | .ok () => if s.isTooLong then .error .nameTooLong else fs.follow (move place s) rest

/-- Where a path starts. -/
def origin (fs : FileTree) (p : Path) : Place := if p.isAbsolute then [] else fs.here

/-- The place that a path leads to. -/
def place (fs : FileTree) (p : Path) : Except FileFault Place :=
  match p.fault? with
  | some e => .error e
  | none => fs.follow (fs.origin p) (if p.endsInSlash then p.steps ++ [.stay] else p.steps)

/-! ## Looking -/

/-- What a path leads to. -/
def look (fs : FileTree) (p : Path) : Except FileFault Node :=
  match fs.place p with
  | .error e => .error e
  | .ok place =>
    match fs.node? place with
    | none => .error .notFound
    | some node => .ok node

/-- Whether a path leads to anything. -/
def isThere (fs : FileTree) (p : Path) : Bool :=
  match fs.look p with
  | .ok _ => true
  | .error _ => false

/-- Whether a path leads to a directory. -/
def isDirectory (fs : FileTree) (p : Path) : Bool :=
  match fs.look p with
  | .ok .directory => true
  | _ => false

/-- Whether a path leads to a file. -/
def isFile (fs : FileTree) (p : Path) : Bool :=
  match fs.look p with
  | .ok (.file _) => true
  | _ => false

/-- The text of a file. -/
def read (fs : FileTree) (p : Path) : Except FileFault Text :=
  match fs.look p with
  | .error e => .error e
  | .ok .directory => .error .isADirectory
  | .ok (.file (.text t)) => .ok t
  | .ok (.file (.binary _)) => .error .notUtf8

/-- The names in the directory at a place. -/
def namesIn (fs : FileTree) (place : Place) : List Text :=
  fs.nodes.filterMap fun (p, _) => if p.dropLast = place then p.getLast? else none

/-- The paths of what is in a directory: its own path with each name joined to it. -/
def entries (fs : FileTree) (p : Path) : List Path :=
  match fs.place p with
  | .error _ => []
  | .ok place => (fs.namesIn place).map fun name => p.join ⟨name⟩

/-! ## Changing -/

/-- The place of a new entry: its directory has to be there, and the last step of its path has to
be a name. -/
def entryPlace (fs : FileTree) (p : Path) (reserved : FileFault) : Except FileFault Place :=
  match p.fault?, p.steps.getLast? with
  | some e, _ => .error e
  | none, none => .error reserved
  | none, some (.down name) =>
    match fs.follow (fs.origin p) p.steps.dropLast with
    | .error e => .error e
    | .ok parent => fs.follow parent [.down name]
  | none, some last =>
    match fs.follow (fs.origin p) (p.steps.dropLast ++ [last]) with
    | .error e => .error e
    | .ok _ => .error reserved

/-- Opens a file to write to it: it is made if it is not there, and emptied if it is. The tree comes
with the place of the file. -/
def openEmpty (fs : FileTree) (p : Path) : Except FileFault (FileTree × Place) :=
  match fs.entryPlace p .isADirectory with
  | .error e => .error e
  | .ok place =>
    if p.endsInSlash || fs.node? place == some .directory then .error .isADirectory
    else .ok (fs.put place (.file (.text [])), place)

/-- Writes a text to a file. The tree comes with what was written before a fault. -/
def write (fs : FileTree) (p : Path) (t : Text) (device : Device) : FileTree × Except FileFault Unit :=
  match fs.openEmpty p with
  | .error e => (fs, .error e)
  | .ok (opened, place) =>
    match device place t with
    | .whole => (opened.put place (.file (.text t)), .ok ())
    | .cut bytes fault => (opened.put place (.file (.front t bytes)), .error fault)

/-- Makes a directory. -/
def makeDirectory (fs : FileTree) (p : Path) : Except FileFault FileTree :=
  match fs.entryPlace p .alreadyExists with
  | .error e => .error e
  | .ok place =>
    if (fs.node? place).isSome then .error .alreadyExists else .ok (fs.put place .directory)

/-- Makes the first of a list of directories, making those after it first where it lacks them. A
directory that is there already is no fault. The tree comes with what was made before a fault. -/
def makeDirectories (fs : FileTree) : List Path → FileTree × Except FileFault Unit
  | [] => (fs, .ok ())
  | p :: outer =>
    match fs.makeDirectory p with
    | .ok fs' => (fs', .ok ())
    | .error .notFound =>
      match fs.makeDirectories outer with
      | (fs', .error e) => (fs', .error e)
      | (fs', .ok ()) =>
        match fs'.makeDirectory p with
        | .ok fs'' => (fs'', .ok ())
        | .error e => (fs', if fs'.isDirectory p then .ok () else .error e)
    | .error e => (fs, if fs.isDirectory p then .ok () else .error e)

/-- Makes the directory at a path and all that lead to it. -/
def makePath (fs : FileTree) (p : Path) : FileTree × Except FileFault Unit :=
  if p.spelling = [] then (fs, .ok ()) else fs.makeDirectories (p :: p.parents)

/-! ## Comparing -/

/-- The content of the file at a place. -/
def contentAt? (fs : FileTree) (place : Place) : Option Content :=
  match fs.node? place with
  | some (.file content) => some content
  | _ => none

/-- The files below a place, each with the names that lead to it from there. -/
def filesBelow (fs : FileTree) (place : Place) : List (Place × Content) :=
  fs.nodes.filterMap fun (p, _) =>
    if place.isPrefixOf p then (fs.contentAt? p).map fun content => (p.drop place.length, content) else none

/-- The files below a place that an earlier tree lacks or has with another content. -/
def changedBelow (before after : FileTree) (place : Place) : List (Place × Content) :=
  (after.filesBelow place).filter fun (p, content) => before.contentAt? (place ++ p) != some content

end FileTree

end DoomLex
