/-
The words of the command line, read in order. Words before the command and words after it are read
alike; each of these two stretches may have a switch once. A value that is a word of its own is
looked at when the next switch or the end of its stretch is reached, and what follows the command
belongs to the stretch before it, so that a question for the version after the command is answered
first.
-/
import DoomLex.CommandLine.Switch

namespace DoomLex

/-- Why a command line cannot be followed. -/
inductive UsageError where
  | noCommand
  | unknownCommand (word : Text)
  | unknownSwitch (word : Text)
  | unwantedValue (s : Switch) (value : Text)
  | missingValue (s : Switch)
  | badValue (s : Switch) (value : Text)
  | repeated (s : Switch)
  | emptyInput
  | noInputs (c : Command)
  | unwantedInput (word : Text)
  /-- A variable of the environment has a value that its switch does not take. -/
  | badVariable (name : String) (value : Text)
deriving DecidableEq, Repr

/-- Why the words are not read to their end. -/
inductive Stop where
  | misused (e : UsageError)
  /-- The version is asked for, before or after a command. -/
  | version (command : Option Command)
  /-- Help is asked for, on a command or in general. -/
  | help (command : Option Command)
deriving DecidableEq, Repr

/-! ## Words -/

/-- The sorts of words. -/
inductive Word where
  /-- Two dashes: what follows are inputs. -/
  | divider
  | long (name : Text) (value : Option Text)
  | letters (t : Text)
  | plain (t : Text)
deriving DecidableEq, Repr

/-- The sort of a word. A long switch has its value after the first equals sign. -/
def Word.ofText : Text → Word
  | ['-', '-'] => .divider
  | '-' :: '-' :: t =>
    match t.dropWhile (· != '=') with
    | _ :: value => .long (t.takeWhile (· != '=')) (some value)
    | [] => .long t none
  | '-' :: c :: t => .letters (c :: t)
  | t => .plain t

/-! ## Switches and inputs -/

/-- What has been read of a stretch of words. -/
structure Reading where
  given : List (Switch × Text)
  inputs : List Text
  /-- A switch whose value is a word of its own, with that word once it was read. -/
  held : Option (Switch × Option Text)
deriving DecidableEq, Repr

namespace Reading

/-- Nothing read. -/
def empty : Reading := ⟨[], [], none⟩

/-- The value of a switch. -/
def value? (r : Reading) (s : Switch) : Option Text := r.given.lookup s

/-- Gives a switch its value. -/
def give (r : Reading) (s : Switch) (value : Text) : Except Stop Reading :=
  if (r.value? s).isSome then .error (.misused (.repeated s))
  else if s.operand.admits value then .ok { r with given := r.given ++ [(s, value)] }
  else .error (.misused (.badValue s value))

/-- Looks at the value that is held. -/
def settle (r : Reading) : Except Stop Reading :=
  match r.held with
  | none => .ok r
  | some (s, none) => .error (.misused (.missingValue s))
  | some (s, some value) => give { r with held := none } s value

/-- Turns a switch without value on. -/
def turnOn (command : Option Command) (r : Reading) (s : Switch) : Except Stop Reading :=
  match r.settle with
  | .error e => .error e
  | .ok r =>
    if s = .help then .error (.help command)
    else if s = .version then .error (.version command)
    else r.give s []

/-- Gives a switch a value that is part of its word, or holds it for the next word. -/
def await (r : Reading) (s : Switch) (value : Option Text) : Except Stop Reading :=
  match r.settle with
  | .error e => .error e
  | .ok r =>
    match value with
    | some value => r.give s value
    | none => .ok { r with held := some (s, none) }

/-- Reads a long switch. -/
def readLong (command : Option Command) (r : Reading) (name : Text) (value : Option Text) :
    Except Stop Reading :=
  match Switch.ofLong? command name with
  | none => .error (.misused (.unknownSwitch name))
  | some s =>
    match s.operand, value with
    | .nothing, none => r.turnOn command s
    | .nothing, some value => .error (.misused (.unwantedValue s value))
    | _, value => r.await s value

/-- Reads the letters after a single dash. A switch with a value is the last of them: the letters
after it are its value, an equals sign before them apart. -/
def readLetters (command : Option Command) (r : Reading) : Text → Except Stop Reading
  | [] => .ok r
  | c :: t =>
    match Switch.ofLetter? command c with
    | none => .error (.misused (.unknownSwitch [c]))
    | some s =>
      if s.operand = .nothing then
        match r.turnOn command s with
        | .error e => .error e
        | .ok r => readLetters command r t
      else
        match t with
        | [] => r.await s none
        | '=' :: value => r.await s (some value)
        | value => r.await s (some value)

/-- Adds an input of a command. -/
def addInput (c : Command) (r : Reading) (word : Text) : Except Stop Reading :=
  match r.settle with
  | .error e => .error e
  | .ok r =>
    if !c.takesInputs then .error (.misused (.unwantedInput word))
    else if word.isEmpty then .error (.misused .emptyInput)
    else .ok { r with inputs := r.inputs ++ [word] }

/-- Adds the words after a divider, all of which are inputs. -/
def addInputs (c : Command) (r : Reading) : List Text → Except Stop Reading
  | [] => r.settle
  | word :: rest =>
    match r.addInput c word with
    | .error e => .error e
    | .ok r => addInputs c r rest

/-! ## Stretches of words -/

/-- Reads the words after a command. -/
def readAfter (c : Command) (r : Reading) : List Text → Except Stop Reading
  | [] => r.settle
  | word :: rest =>
    match Word.ofText word, r.held with
    | .divider, _ => r.addInputs c rest
    | .long name value, _ =>
      match r.readLong (some c) name value with
      | .error e => .error e
      | .ok r => readAfter c r rest
    | .letters t, _ =>
      match r.readLetters (some c) t with
      | .error e => .error e
      | .ok r => readAfter c r rest
    | .plain t, some (s, none) => readAfter c { r with held := some (s, some t) } rest
    | .plain t, _ =>
      match r.addInput c t with
      | .error e => .error e
      | .ok r => readAfter c r rest

/-- What the words after the command `help` ask for. -/
def readHelp : List Text → Stop
  | [] => .help none
  | [word] =>
    match Command.ofName? word with
    | some c => .help (some c)
    | none => if word = "help".toList then .help none else .misused (.unknownCommand word)
  | _ :: word :: _ => .misused (.unknownCommand word)

/-- Reads the words before the command and the command. The words after it are left. -/
def readBefore (r : Reading) : List Text → Except Stop (Reading × Command × List Text)
  | [] => .error (.misused .noCommand)
  | word :: rest =>
    match Word.ofText word, r.held with
    | .divider, _ => .error (.misused ((rest.head?.map .unknownCommand).getD .noCommand))
    | .long name value, _ =>
      match r.readLong none name value with
      | .error e => .error e
      | .ok r => readBefore r rest
    | .letters t, _ =>
      match r.readLetters none t with
      | .error e => .error e
      | .ok r => readBefore r rest
    | .plain t, some (s, none) => readBefore { r with held := some (s, some t) } rest
    | .plain t, _ =>
      match Command.ofName? t with
      | some c => .ok (r, c, rest)
      | none => .error (if t = "help".toList then readHelp rest else .misused (.unknownCommand t))

end Reading

/-- The words of a command line. -/
structure CommandLine where
  before : Reading
  command : Command
  after : Reading
deriving DecidableEq, Repr

/-- Reads the words of a command line. -/
def CommandLine.read (words : List Text) : Except Stop CommandLine :=
  match Reading.empty.readBefore words with
  | .error e => .error e
  | .ok (before, command, rest) =>
    match Reading.empty.readAfter command rest with
    | .error e => .error e
    | .ok after =>
      match before.settle with
      | .error e => .error e
      | .ok before => .ok ⟨before, command, after⟩

end DoomLex
