/-
The tool on a machine: copies the files that a run may look at into a tree, runs, writes back what
the run has changed, and shows what it says.
-/
import DoomLex.CommandLine.Run

namespace DoomLex.Console

/-! ## Looking around -/

/-- Reads the variables that the tool asks for. -/
def environment : IO Environment :=
  ["DTKT_VERBOSE", "DTKT_CONFIG", "DTKT_NO_COLOR", "HOME", "XDG_CONFIG_HOME"].filterMapM fun name => do
    return (← IO.getEnv name).map fun value => (name.toList, value.toList)

/-- The number of processors. -/
def processors : IO UInt32 := do
  try
    let lines ← IO.FS.lines "/proc/cpuinfo"
    return (lines.filter (·.startsWith "processor")).size.toUInt32
  catch _ => return 4

/-- How a place is spelt. -/
def spelling (place : Place) : String :=
  String.ofList (if place = [] then ['/'] else place.flatMap fun name => '/' :: name)

/-- Copies what is at a place. -/
def copyPlace (fs : FileTree) (place : Place) : IO FileTree := do
  let path := (← IO.currentDir) / spelling place
  if ← path.isDir then return fs.put place .directory
  if !(← path.pathExists) then return fs
  let bytes ← IO.FS.readBinFile path
  match String.fromUTF8? bytes with
  | some t => return fs.put place (.file (.text t.toList))
  | none => return fs.put place (.file (.binary bytes.toList))

/-- Copies what steps from a place lead through. -/
def copySteps (fs : FileTree) (place : Place) : List Step → IO FileTree
  | [] => copyPlace fs place
  | s :: rest => do copySteps (← copyPlace fs place) (FileTree.move place s) rest

/-- Copies what a path leads through, and what is in the directory that it may lead to. -/
def copyPath (fs : FileTree) (p : Path) : IO FileTree := do
  let mut copy ← copySteps fs (fs.origin p) p.steps
  let path := (← IO.currentDir) / p.display
  if ← path.isDir then
    for entry in ← path.readDir do
      copy ← copySteps copy (fs.origin p) (p.steps ++ [.down entry.fileName.toList])
  return copy

/-- The tree before a run: all that its paths lead to. -/
def copyFor (i : Invocation) (env : Environment) : IO FileTree := do
  let here := (Path.ofString (← IO.currentDir).toString).steps.foldl FileTree.move []
  let nothing : FileTree := ⟨here, []⟩
  (i.paths (env.surroundings nothing 0)).foldlM copyPath nothing

/-! ## Acting -/

/-- Writes what a run has changed. -/
def writeBack (before after : FileTree) : IO Unit := do
  for (place, node) in after.nodes do
    if node == .directory && before.node? place != some .directory then IO.FS.createDirAll (spelling place)
  for (place, content) in before.changedBelow after [] do
    match content with
    | .text t => IO.FS.writeFile (spelling place) (String.ofList t)
    | .binary bytes => IO.FS.writeBinFile (spelling place) ⟨bytes.toArray⟩

/-- The line that reports an event. -/
def report (colored : Bool) (e : Event) : String :=
  let weight := String.ofList (padLeft 5 e.weight.name.toList)
  let color := match e.weight with
    | .debug => "34"
    | .info => "32"
    | .warn => "33"
  (if colored then "\x1b[" ++ color ++ "m" ++ weight ++ "\x1b[0m" else weight) ++ " " ++ e.message

/-- Shows what the tool answers. -/
def present (r : Response) : IO Unit := do
  let out ← IO.getStdout
  let err ← IO.getStderr
  match r with
  | .misused e => err.putStrLn s!"error: {e.message}"
  | .told t => out.putStr (String.ofList t)
  | .ran colored o =>
    for t in o.notes do err.putStrLn (String.ofList t)
    for e in o.events do err.putStrLn (report colored e)
    out.putStr (String.ofList o.output)
    if let some e := o.failure then err.putStrLn s!"Error: {e.parts}"

/-- Runs the tool with the words of a command line. -/
def answer (words : List Text) : IO Response := do
  let env ← environment
  match Invocation.read env words with
  | .error stop => return .ofStop stop
  | .ok i =>
    let before ← copyFor i env
    let response := Response.ofWords env before (← processors) words
    if let .ran _ outcome := response then writeBack before outcome.files
    return response

end DoomLex.Console

/-- The tool. -/
def main (args : List String) : IO UInt32 := do
  let response ← DoomLex.Console.answer (args.map String.toList)
  DoomLex.Console.present response
  return response.exitCode
