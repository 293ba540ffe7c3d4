/-
The files of a run. A file that the command line names is taken as it is; a directory stands for the
files directly in it whose language is known. The files are put in the order of their paths, each
path once.
-/
import DoomLex.Document
import DoomLex.Tool.Resolve

namespace DoomLex

namespace Path

/-- Drops each path that is the same as the one kept before it. -/
def dropRepeats (last : Path) : List Path → List Path
  | [] => []
  | p :: rest => if last.same p then dropRepeats last rest else p :: dropRepeats p rest

/-- Paths in order, each once; of several spellings the first one stays. -/
def arrange (paths : List Path) : List Path :=
  match paths.mergeSort le with
  | [] => []
  | p :: rest => p :: dropRepeats p rest

end Path

namespace FileTree

/-- The files directly in a directory whose language is known. -/
def knownSources (fs : FileTree) (s : LexSettings) (directory : Path) : List Path :=
  (fs.entries directory).filter fun p => fs.isFile p && s.isKnownSource p

/-- The files that one input stands for. -/
def expand (fs : FileTree) (s : LexSettings) (input : Path) : Except ToolError (List Path) :=
  if fs.isDirectory input then .ok (fs.knownSources s input)
  else if fs.isFile input then .ok [input]
  else .error (.noSuchInput input)

/-- The files that inputs stand for, one input after the other. -/
def expandAll (fs : FileTree) (s : LexSettings) : List Path → Except ToolError (List Path)
  | [] => .ok []
  | input :: rest =>
    match fs.expand s input with
    | .error e => .error e
    | .ok files =>
      match fs.expandAll s rest with
      | .error e => .error e
      | .ok more => .ok (files ++ more)

/-- The files of a run. -/
def collect (fs : FileTree) (s : LexSettings) (inputs : List Path) : Except ToolError (List Path) :=
  if inputs = [] then .error .noInputs
  else
    match fs.expandAll s inputs with
    | .error e => .error e
    | .ok files => .ok (Path.arrange files)

/-- The text of a source file. -/
def readSource (fs : FileTree) (p : Path) : Except ToolError Text :=
  match fs.read p with
  | .ok t => .ok t
  | .error fault => .error (.unreadableSource p fault)

/-- The document of a source file. -/
def openSource (fs : FileTree) (s : LexSettings) (flag : Option Text) (p : Path) :
    Except ToolError Document :=
  match s.resolve flag p with
  | .error e => .error e
  | .ok l =>
    match fs.readSource p with
    | .error e => .error e
    | .ok t => .ok (Document.ofText l t)

end FileTree

end DoomLex
