/-
Files with settings: where they are looked for, how they are read and written, and how a directory
is given one.
-/
import DoomLex.Settings.Document
import DoomLex.Toml.Reader
import DoomLex.Tool.Error

namespace DoomLex

/-- What a run finds around it. -/
structure Surroundings where
  files : FileTree
  /-- The home directory. -/
  home : Option Path
  /-- The directory for the settings of programs. -/
  configHome : Option Path
  processors : UInt32

namespace SettingsFile

/-! ## Reading -/

/-- Reads the settings at a path. -/
def load (fs : FileTree) (processors : UInt32) (p : Path) : Except ToolError Settings :=
  if fs.isThere p then
    match fs.read p with
    | .error fault => .error (.file fault)
    | .ok t =>
      match (Toml.read t).bind (Settings.ofEntries? processors) with
      | some s => .ok s
      | none => .error .malformedSettings
  else .error (.settingsNotFound p)

/-- A path with names joined to it. -/
def below (p : Path) (names : List String) : Path := names.foldl (fun p n => p.join (Path.ofString n)) p

/-- The paths at which settings are looked for, in this order. -/
def candidates (s : Surroundings) : List Path :=
  [Path.ofString settingsFileName] ++
    (s.home.map fun p => below p [".config", "dtkt", settingsFileName]).toList ++
    (s.configHome.map fun p => below p ["dtkt", settingsFileName]).toList

/-- Reads the settings at a path, or else the first settings found, or else the defaults. -/
def find (s : Surroundings) (given : Option Path) : Except ToolError Settings :=
  match given with
  | some p => load s.files s.processors p
  | none =>
    match (candidates s).find? s.files.isThere with
    | some p => load s.files s.processors p
    | none => .ok (Settings.default s.processors)

/-! ## Writing -/

/-- Writes settings to a path, making the directories that lead to it. -/
def save (fs : FileTree) (settings : Settings) (p : Path) (device : optParam Device .sound) :
    FileTree × Except ToolError Unit :=
  let made :=
    match p.parent? with
    | some parent => fs.makePath parent
    | none => (fs, .ok ())
  match made with
  | (fs, .error fault) => (fs, .error (.file fault))
  | (fs, .ok ()) =>
    match settings.toDocument? with
    | none => (fs, .error .unwritableSettings)
    | some t =>
      match fs.write p t device with
      | (fs, .error fault) => (fs, .error (.file fault))
      | (fs, .ok ()) => (fs, .ok ())

/-- The directory to give settings to. -/
def target (path : Option Path) : Path := path.getD (Path.ofString ".")

/-- Sees to it that the target is a directory. -/
def prepareTarget (fs : FileTree) (p : Path) : FileTree × Except ToolError Unit :=
  if fs.isThere p then (fs, if fs.isDirectory p then .ok () else .error (.targetNotDirectory p))
  else
    match fs.makePath p with
    | (fs, .ok ()) => (fs, .ok ())
    | (fs, .error fault) => (fs, .error (.uncreatableDirectory p fault))

/-- Writes the default settings into a directory, which is made if it is not there. Settings that are
there are kept, unless they are to be overwritten. -/
def create (fs : FileTree) (processors : UInt32) (path : Option Path) (force : Bool) (device : optParam Device .sound) :
    FileTree × Except ToolError Path :=
  match prepareTarget fs (target path) with
  | (fs, .error e) => (fs, .error e)
  | (fs, .ok ()) =>
    let file := (target path).join (Path.ofString settingsFileName)
    if fs.isThere file && !force then (fs, .error (.settingsExist file))
    else
      match save fs (Settings.default processors) file device with
      | (fs, .error e) => (fs, .error e)
      | (fs, .ok ()) => (fs, .ok file)

end SettingsFile

end DoomLex
