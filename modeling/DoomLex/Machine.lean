/-
Scanning by state machines. A machine sees a text character by character and never a line break: at
a line break, and at the end of the text, it leaves the line with the state in which the next line
starts. It answers each character by taking it into the pending run, by ending the run after or
before it, or by asking to be shown it again; what the pending run is once it ends is read off the
state and the run. The finished runs, together with a run for each line break, are the text.
-/
import DoomLex.Kind
import DoomLex.Text.Basic

namespace DoomLex

/-- What is open where a line starts. -/
inductive LineState where
  | neutral | preprocessor | backquote | blockComment | docComment
deriving DecidableEq, Repr

/-- The name of a line state in reports. -/
def LineState.name : LineState → String
  | .neutral => "Neutral"
  | .preprocessor => "Preprocessor"
  | .backquote => "Backquote"
  | .blockComment => "BlockComment"
  | .docComment => "DocComment"

/-- All line states. -/
def LineState.all : List LineState := [.neutral, .preprocessor, .backquote, .blockComment, .docComment]

/-- The line state of a name. -/
def LineState.ofName? (name : String) : Option LineState := all.find? (·.name == name)

/-- What a machine answers to a character. -/
inductive Answer (σ : Type) where
  /-- The character joins the pending run. -/
  | take (next : σ)
  /-- The character joins the pending run, which ends after it and is of the given kind. -/
  | close (kind : Kind) (next : σ)
  /-- The pending run ends before the character, which starts the next run. -/
  | split (next : σ)
  /-- The pending run ends before the character, which is shown again. -/
  | cut (next : σ)
  /-- The character is shown again with the same pending run. -/
  | again (next : σ)

/-- Whether the character is to be shown again. -/
def Answer.rewinds {σ : Type} : Answer σ → Bool
  | .cut _ | .again _ => true
  | _ => false

/-- The state after an answer. -/
def Answer.next {σ : Type} : Answer σ → σ
  | .take s | .close _ s | .split s | .cut s | .again s => s

/-- A state machine that scans lines. -/
structure Machine (σ : Type) where
  /-- The state at the start of a line. -/
  enter : LineState → σ
  /-- The answer to a character other than a line break. -/
  answer : σ → Char → Answer σ
  /-- The kind of a pending run that ends before a character. -/
  label : σ → Text → Kind
  /-- The kind of a pending run that ends with its line. -/
  lastLabel : σ → Text → Kind
  /-- The state in which the next line starts. -/
  leave : σ → LineState

/-- A stretch of a text that is of one kind. -/
structure Run where
  kind : Kind
  text : Text
deriving DecidableEq, Repr

namespace Run

/-- The run of the pending characters, the last one first; there is no empty run. -/
def ofPending (kind : Text → Kind) (pending : Text) : List Run :=
  if pending.isEmpty then [] else [⟨kind pending.reverse, pending.reverse⟩]

/-- The run of a line break. -/
def newline : Run := ⟨.whitespace, ['\n']⟩

/-- The text that runs cover. -/
def textOf (runs : List Run) : Text := runs.flatMap (·.text)

end Run

namespace Machine

variable {σ : Type}

/-- What one character leads to: the runs that end at it, and the state and the pending run (the
last character first) after it. -/
structure Reaction (σ : Type) where
  done : List Run
  next : σ
  pending : Text

/-- Has the machine consume a character; one that it asks to see again joins the run all the same. -/
def absorb (m : Machine σ) (s : σ) (pending : Text) (c : Char) : Reaction σ :=
  match m.answer s c with
  | .close kind next => ⟨[⟨kind, (c :: pending).reverse⟩], next, []⟩
  | .split next => ⟨Run.ofPending (m.label s) pending, next, [c]⟩
  | .take next | .cut next | .again next => ⟨[], next, c :: pending⟩

/-- Shows the machine a character, and a second time if it asks to see it again. -/
def react (m : Machine σ) (s : σ) (pending : Text) (c : Char) : Reaction σ :=
  match m.answer s c with
  | .cut next =>
    let r := m.absorb next [] c
    { r with done := Run.ofPending (m.label s) pending ++ r.done }
  | .again next => m.absorb next pending c
  | _ => m.absorb s pending c

/-- Scans a text on from a state and a pending run. -/
def scanFrom (m : Machine σ) (s : σ) (pending : Text) : Text → List Run × LineState
  | [] => (Run.ofPending (m.lastLabel s) pending, m.leave s)
  | c :: t =>
    if c = '\n' then
      let (runs, state) := m.scanFrom (m.enter (m.leave s)) [] t
      (Run.ofPending (m.lastLabel s) pending ++ Run.newline :: runs, state)
    else
      let r := m.react s pending c
      let (runs, state) := m.scanFrom r.next r.pending t
      (r.done ++ runs, state)

/-- The runs of a text that starts in a line state, and the state in which the next line starts. -/
def scan (m : Machine σ) (state : LineState) (t : Text) : List Run × LineState :=
  m.scanFrom (m.enter state) [] t

end Machine

end DoomLex
