/-
Paths of files. A path is compared by its components: repeated slashes, slashes at the end and
single dots count for nothing, a dot at the start of a relative path apart. Components are ordered
with the root first, then the dot, then two dots, then names by their characters.
-/
import DoomLex.Text.Order

namespace DoomLex

/-- A step of a path. -/
inductive Component where
  | root
  | current
  | parent
  | name (n : Text)
deriving DecidableEq, Repr

namespace Component

/-- The place of a component's sort in the order of components. -/
def rank : Component → Nat
  | root => 0
  | current => 1
  | parent => 2
  | name _ => 3

/-- The order of components. -/
def compare (a b : Component) : Ordering :=
  match a, b with
  | name m, name n => if m.precedes n then .lt else if n.precedes m then .gt else .eq
  | _, _ => Ord.compare a.rank b.rank

end Component

/-- A path as it is spelt. -/
structure Path where
  spelling : Text
deriving DecidableEq, Repr

namespace Path

/-- The path of a string. -/
def ofString (s : String) : Path := ⟨s.toList⟩

/-- The path as a string. -/
def display (p : Path) : String := String.ofList p.spelling

/-! ## Components -/

/-- The components that a stretch between slashes stands for. -/
def stretch (t : Text) : List Component :=
  if t = [] ∨ t = ['.'] then [] else if t = ['.', '.'] then [.parent] else [.name t]

/-- The components of a path. -/
def components (p : Path) : List Component :=
  match p.spelling.splitOn '/' with
  | [] => []
  | first :: rest =>
    let lead : List Component :=
      if first = [] then (if rest = [] then [] else [.root])
      else if first = ['.'] then [.current] else stretch first
    lead ++ rest.flatMap stretch

/-- Whether a path starts at the root. -/
def isAbsolute (p : Path) : Bool := p.spelling.head? == some '/'

/-- The order of lists of components: the first difference decides, and a shorter start comes first. -/
def compareComponents : List Component → List Component → Ordering
  | [], [] => .eq
  | [], _ :: _ => .lt
  | _ :: _, [] => .gt
  | a :: as, b :: bs => (a.compare b).then (compareComponents as bs)

/-- The order of paths. -/
def compare (p q : Path) : Ordering := compareComponents p.components q.components

/-- Whether a path comes before another or is the same. -/
def le (p q : Path) : Bool := p.compare q != .gt

/-- Whether two paths have the same components. -/
def same (p q : Path) : Bool := p.components == q.components

/-! ## Parts -/

/-- The name that a path ends in. -/
def fileName? (p : Path) : Option Text :=
  match p.components.getLast? with
  | some (.name n) => some n
  | _ => none

/-- Cuts a text at its last point. -/
def splitLastPoint? : Text → Option (Text × Text)
  | [] => none
  | c :: t =>
    match splitLastPoint? t with
    | some (stem, extension) => some (c :: stem, extension)
    | none => if c = '.' then some ([], t) else none

/-- What follows the last point of the file name, unless that point starts the name. -/
def extension? (p : Path) : Option Text := do
  let name ← p.fileName?
  let (stem, extension) ← splitLastPoint? name
  if stem = [] then none else some extension

/-- Spells a component. -/
def spell : Component → Text
  | .root => []
  | .current => ['.']
  | .parent => ['.', '.']
  | .name n => n

/-- The path of a list of components. -/
def ofComponents (cs : List Component) : Path :=
  match cs with
  | [.root] => ⟨['/']⟩
  | cs => ⟨['/'].intercalate (cs.map spell)⟩

/-- The paths that lead to a list of components, given last component first, the nearest path first;
a relative path ends in none. -/
def outer : List Component → List Path
  | [] | [.root] => []
  | _ :: rest => if rest = [] then [] else ofComponents rest.reverse :: outer rest

/-- The paths of the directories that lead to a path, the nearest first. -/
def parents (p : Path) : List Path := outer p.components.reverse

/-- The path of the directory that a path is in; that of a single name is empty. -/
def parent? (p : Path) : Option Path :=
  match p.components.reverse with
  | [] | .root :: _ => none
  | _ :: rest => some (ofComponents rest.reverse)

/-- The path of an entry of the directory `p`. -/
def join (p : Path) (entry : Path) : Path :=
  if entry.isAbsolute then entry
  else
    match p.spelling.getLast? with
    | none => entry
    | some '/' => ⟨p.spelling ++ entry.spelling⟩
    | some _ => ⟨p.spelling ++ '/' :: entry.spelling⟩

end Path

end DoomLex
