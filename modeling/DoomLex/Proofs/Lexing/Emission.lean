/-
Tokens pushed on the way: a loop that keeps only the byte at which the pending run starts, and cuts each
run into tokens as soon as it ends, links among them, pushes the tokens into which the runs of the scan are
cut afterwards. So how runs are cut has no say in where they end, in their kinds or in the state that is
left: with links carved out the tokens are those without, each one that may hold links replaced by its
pieces. Each round of this loop is a round of the loop over runs, seen through the places of the runs.
-/
import DoomLex.Proofs.Lexing.Coverage
import DoomLex.Proofs.Lexing.Pushback

namespace DoomLex

/-! ## The loop that pushes tokens -/

/-- Where the loop that pushes tokens stands. -/
structure Emission (σ : Type) where
  state : σ
  /-- The byte at which the pending run starts. -/
  start : Nat
  /-- The byte of the character in hand. -/
  place : Nat
  /-- The characters from the one in hand on. -/
  rest : Text
  /-- The tokens pushed. -/
  tokens : List Token

namespace Emission

variable {σ : Type}

def advance (x : Emission σ) (c : Char) : Emission σ :=
  { x with place := x.place + c.utf8Size, rest := x.rest.tail }

def goTo (x : Emission σ) (s : σ) : Emission σ := { x with state := s }

end Emission

/-- What takes in the runs of a text: how it cuts them, the text, and the byte of the document at which
the text starts. -/
structure Emitter where
  cut : Run → List Piece
  segment : Text
  offset : Nat

namespace Emitter

variable {σ : Type}

/-- Ends the pending run before the character in hand and pushes its tokens; an empty run has none. -/
def push (e : Emitter) (kind : Text → Kind) (x : Emission σ) : Emission σ :=
  let text := (e.segment.slice? x.start x.place).getD []
  let run : Run := ⟨kind text, text⟩
  let pushed :=
    if x.start < x.place then layOut e.offset x.start ((e.cut run).map fun p => (run.kind, p)) else []
  { x with start := x.place, tokens := x.tokens ++ pushed }

/-- Does what the machine answers to the character in hand. -/
def obey (e : Emitter) (m : Machine σ) (x : Emission σ) (c : Char) : Answer σ → Emission σ
  | .take s => (x.advance c).goTo s
  | .close kind s => (e.push (fun _ => kind) (x.advance c)).goTo s
  | .split s => ((e.push (m.label x.state) x).advance c).goTo s
  | .cut s => (e.push (m.label x.state) x).goTo s
  | .again s => x.goTo s

/-- Ends the line at the line break in hand, which is pushed by itself. -/
def breakLine (e : Emitter) (m : Machine σ) (x : Emission σ) : Emission σ :=
  let broken := (e.push (m.lastLabel x.state) x).advance '\n'
  (e.push (fun _ => .whitespace) broken).goTo (m.enter (m.leave x.state))

/-- One round: a line break ends the line, any other character is shown to the machine. At the end of the
text there is no round. -/
def round (e : Emitter) (m : Machine σ) (x : Emission σ) : Option (Emission σ) :=
  match x.rest with
  | [] => none
  | c :: _ => if c = '\n' then some (e.breakLine m x) else some (e.obey m x c (m.answer x.state c))

/-- The tokens and the line state if the text ends at a place. -/
def finish (e : Emitter) (m : Machine σ) (x : Emission σ) : Lexed :=
  ⟨(e.push (m.lastLabel x.state) x).tokens, m.leave x.state⟩

/-- Round after round from a place, the loop ends with these tokens and this line state. -/
inductive Ends (e : Emitter) (m : Machine σ) : Emission σ → Lexed → Prop where
  | here {x : Emission σ} (h : e.round m x = none) : Ends e m x (e.finish m x)
  | next {x y : Emission σ} {out : Lexed} (h : e.round m x = some y) (hy : Ends e m y out) : Ends e m x out

theorem Ends.unique {e : Emitter} {m : Machine σ} {x : Emission σ} {out out' : Lexed} (h : e.Ends m x out)
    (h' : e.Ends m x out') : out' = out := by
  induction h with
  | here h =>
    cases h' with
    | here => rfl
    | next hy => rw [h] at hy; cases hy
  | next h _ ih =>
    cases h' with
    | here hx => rw [h] at hx; cases hx
    | next hx hy =>
      rw [h] at hx
      obtain rfl := Option.some.inj hx
      exact ih hy

end Emitter

/-! ## Rounds over runs and rounds over tokens -/

section Simulation

variable {σ : Type} {e : Emitter} {m : Machine σ}

namespace Position

/-- The place of the loop over tokens that belongs to a place of the loop over runs. -/
def emission (e : Emitter) (x : Position σ) : Emission σ where
  state := x.state
  start := Text.width (Run.textOf x.done)
  place := Text.width (Run.textOf x.done) + Text.width x.pending
  rest := x.rest
  tokens := layOut e.offset 0 (stretchesBy e.cut x.done)

/-- The place is one in the text of the emitter. -/
def IsIn (e : Emitter) (x : Position σ) : Prop :=
  Run.textOf x.done ++ x.pending.reverse ++ x.rest = e.segment

def ended (kind : Text → Kind) (x : Position σ) : Position σ :=
  { x with done := x.done ++ Run.ofPending kind x.pending, pending := [] }

def advance (x : Position σ) (c : Char) : Position σ :=
  { x with pending := c :: x.pending, rest := x.rest.tail }

theorem isIn_ended {x : Position σ} (hx : x.IsIn e) (kind : Text → Kind) : (x.ended kind).IsIn e := by
  rw [IsIn, ended, ← hx]
  simp

theorem isIn_advance {x : Position σ} (hx : x.IsIn e) {c : Char} {t : Text} (hrest : x.rest = c :: t) :
    (x.advance c).IsIn e := by
  rw [IsIn, advance, ← hx, hrest]
  simp

theorem emission_advance (x : Position σ) (c : Char) :
    (x.advance c).emission e = (x.emission e).advance c := by
  simp only [advance, emission, Emission.advance, Text.width_cons, Emission.mk.injEq]
  refine ⟨trivial, trivial, ?_, trivial, trivial⟩
  omega

/-- Ending the pending run is pushing it. -/
theorem emission_ended (hcut : ∀ r, (e.cut r).flatMap (·.text) = r.text) {x : Position σ} (hx : x.IsIn e)
    (kind : Text → Kind) : (x.ended kind).emission e = e.push kind (x.emission e) := by
  obtain ⟨done, s, pending, rest, calls⟩ := x
  have hwidth : Text.width (Run.textOf (done ++ Run.ofPending kind pending)) =
      Text.width (Run.textOf done) + Text.width pending := by
    rw [Run.textOf_append, Run.textOf_ofPending, Text.width_append, Text.width_reverse]
  cases pending with
  | nil => simp [Emitter.push, emission, ended, Run.ofPending]
  | cons c pending =>
    have hslice : e.segment.slice? (Text.width (Run.textOf done))
        (Text.width (Run.textOf done) + Text.width (c :: pending)) = some (c :: pending).reverse := by
      rw [← hx, ← Text.width_reverse (c :: pending)]
      exact Text.slice?_append (Run.textOf done) (c :: pending).reverse rest
    -- the run has a byte, so the emitter does not take it for an empty one
    have hpos := Text.width_pos (List.cons_ne_nil c pending)
    have htokens : layOut e.offset 0 (stretchesBy e.cut (done ++ Run.ofPending kind (c :: pending))) =
        layOut e.offset 0 (stretchesBy e.cut done) ++ layOut e.offset (Text.width (Run.textOf done))
          ((e.cut ⟨kind (c :: pending).reverse, (c :: pending).reverse⟩).map fun p =>
            (kind (c :: pending).reverse, p)) := by
      rw [stretchesBy_append, layOut_append, stretchText_stretchesBy hcut, Nat.zero_add]
      simp [stretchesBy, Run.ofPending]
    simp only [Emitter.push, emission, ended, hslice, Option.getD_some, hwidth, htokens]
    rw [if_pos (by omega)]
    rfl

end Position

section Round

variable (hcut : ∀ r, (e.cut r).flatMap (·.text) = r.text) {done : List Run} {s : σ} {pending : Text}
  {c : Char} {rest : Text} {calls : List Call} {y : Position σ}

include hcut

theorem round_emission_newline (hx : Position.IsIn e ⟨done, s, pending, '\n' :: rest, calls⟩)
    (h : m.round ⟨done, s, pending, '\n' :: rest, calls⟩ = some y) :
    e.round m (Position.emission e ⟨done, s, pending, '\n' :: rest, calls⟩) = some (y.emission e) ∧
      y.IsIn e := by
  have hended := Position.isIn_ended hx (m.lastLabel s)
  have hbroken := Position.isIn_advance hended rfl
  -- the pending run is pushed, and then the line break as a run of its own
  have hpush := Position.emission_ended hcut hbroken fun _ => .whitespace
  rw [Position.emission_advance, Position.emission_ended hcut hx] at hpush
  rw [m.round_newline] at h
  obtain rfl := Option.some.inj h
  exact ⟨congrArg (fun z : Emission σ => some (z.goTo (m.enter (m.leave s)))) hpush.symm,
    Position.isIn_ended hbroken fun _ => .whitespace⟩

theorem round_emission_answer (hc : c ≠ '\n') (hx : Position.IsIn e ⟨done, s, pending, c :: rest, calls⟩)
    (h : m.round ⟨done, s, pending, c :: rest, calls⟩ = some y) :
    e.round m (Position.emission e ⟨done, s, pending, c :: rest, calls⟩) = some (y.emission e) ∧
      y.IsIn e := by
  have hround : e.round m (Position.emission e ⟨done, s, pending, c :: rest, calls⟩) =
      some (e.obey m (Position.emission e ⟨done, s, pending, c :: rest, calls⟩) c (m.answer s c)) := by
    simp [Emitter.round, Position.emission, hc]
  have hadvance := Position.isIn_advance hx rfl
  have hpush := Position.emission_ended hcut hx (m.label s)
  rw [hround]
  simp only [Machine.round, if_neg hc] at h
  -- whether the pending run ends, and whether the character is taken, is up to the answer alone
  generalize m.answer s c = answer at h ⊢
  cases answer with
  | take s' =>
    obtain rfl := Option.some.inj h
    rw [Emitter.obey, ← Position.emission_advance]
    exact ⟨rfl, hadvance⟩
  | close kind s' =>
    obtain rfl := Option.some.inj h
    rw [Emitter.obey, ← Position.emission_advance, ← Position.emission_ended hcut hadvance]
    exact ⟨rfl, Position.isIn_ended hadvance fun _ => kind⟩
  | split s' =>
    -- the run ends before the character, which is the first of the next
    have hsplit := Position.emission_advance (e := e)
      (Position.ended (m.label s) ⟨done, s, pending, c :: rest, calls⟩) c
    rw [hpush] at hsplit
    obtain rfl := Option.some.inj h
    exact ⟨congrArg (fun z : Emission σ => some (z.goTo s')) hsplit.symm,
      Position.isIn_advance (Position.isIn_ended hx (m.label s)) rfl⟩
  | cut s' =>
    obtain rfl := Option.some.inj h
    exact ⟨congrArg (fun z : Emission σ => some (z.goTo s')) hpush.symm, Position.isIn_ended hx (m.label s)⟩
  | again s' =>
    obtain rfl := Option.some.inj h
    exact ⟨rfl, hx⟩

end Round

/-- A round over runs is a round over tokens, and stays in the text. -/
theorem round_emission (hcut : ∀ r, (e.cut r).flatMap (·.text) = r.text) {x y : Position σ} (hx : x.IsIn e)
    (h : m.round x = some y) : e.round m (x.emission e) = some (y.emission e) ∧ y.IsIn e := by
  obtain ⟨done, s, pending, rest, calls⟩ := x
  cases rest with
  | nil => rw [m.round_of_rest_nil rfl] at h; cases h
  | cons c rest =>
    by_cases hc : c = '\n'
    · subst hc
      exact round_emission_newline hcut hx h
    · exact round_emission_answer hcut hc hx h

theorem rest_of_round_eq_none {x : Position σ} (h : m.round x = none) : x.rest = [] := by
  unfold Machine.round at h
  cases hrest : x.rest with
  | nil => rfl
  | cons c rest =>
    rw [hrest] at h
    dsimp only at h
    by_cases hc : c = '\n'
    · rw [if_pos hc] at h
      cases h
    · rw [if_neg hc] at h
      cases ha : m.answer x.state c <;> rw [ha] at h <;> cases h

/-- From a place where the loop over runs ends, the loop over tokens ends with the tokens of those runs. -/
theorem ends_emission (hcut : ∀ r, (e.cut r).flatMap (·.text) = r.text) {x z : Position σ} (h : m.Ends x z)
    (hx : x.IsIn e) :
    e.Ends m (x.emission e) ⟨layOut e.offset 0 (stretchesBy e.cut (z.finish m).1), (z.finish m).2⟩ := by
  induction h with
  | @here x h =>
    have hround : e.round m (x.emission e) = none := by
      simp [Emitter.round, Position.emission, rest_of_round_eq_none h]
    have hpush := Position.emission_ended hcut hx (m.lastLabel x.state)
    have htokens : (e.finish m (x.emission e)).tokens =
        layOut e.offset 0 (stretchesBy e.cut (x.finish m).1) :=
      congrArg Emission.tokens hpush.symm
    rw [← htokens]
    exact .here hround
  | next h _ ih =>
    obtain ⟨hround, hy⟩ := round_emission hcut hx h
    exact .next hround (ih hy)

end Simulation

/-! ## Runs cut and runs left whole -/

def Run.whole (r : Run) : List Piece := [⟨r.text, false⟩]

theorem Run.flatMap_text_whole (r : Run) : r.whole.flatMap (·.text) = r.text := by simp [whole]

namespace Language

/-- The loop that cuts each run into tokens as soon as it ends, started at a text in a line state, ends with
these tokens and this line state. -/
def Emits (l : Language) (cut : Run → List Piece) (t : Text) (state : LineState) (offset : Nat)
    (out : Lexed) : Prop :=
  Emitter.Ends ⟨cut, t, offset⟩ l.machine ⟨l.machine.enter state, 0, 0, t, []⟩ out

/-- The tokens of a text if no run is cut, and the state in which the next line starts. -/
def uncarved (l : Language) (t : Text) (state : LineState) (offset : Nat) : Lexed :=
  ⟨layOut offset 0 (stretchesBy Run.whole (l.scan state t).1), (l.scan state t).2⟩

theorem emits_iff (l : Language) {cut : Run → List Piece} (hcut : ∀ r, (cut r).flatMap (·.text) = r.text)
    (t : Text) (state : LineState) (offset : Nat) (out : Lexed) :
    l.Emits cut t state offset out ↔
      out = ⟨layOut offset 0 (stretchesBy cut (l.scan state t).1), (l.scan state t).2⟩ := by
  obtain ⟨x, _, hx, _, hfin, _, _⟩ :=
    Machine.exists_ends l.machine_settles [] (l.machine.enter state) [] t []
  rw [List.nil_append] at hfin
  have hscan : x.finish l.machine = l.scan state t := by
    rw [hfin, scan_eq_machine_scan]
    rfl
  have hends := ends_emission (e := ⟨cut, t, offset⟩) hcut hx rfl
  rw [hscan] at hends
  constructor
  · intro h
    exact hends.unique h
  · rintro rfl
    exact hends

end Language

/-! ## Carving tokens -/

namespace Token

/-- The tokens into which a token is cut: the pieces of its text, laid out from its places, if its kind may
hold links, and else the token itself. -/
def carved (k : Token) : List Token :=
  match k.kind.linkForm? with
  | some form =>
    (layOut k.offset 0 ((Link.carve form k.text).map fun p => (k.kind, p))).map (·.behind k.start)
  | none => [k]

theorem kind_of_mem_carved {k piece : Token} (h : piece ∈ k.carved) : piece.kind = k.kind := by
  unfold carved at h
  split at h
  · obtain ⟨q, hq, rfl⟩ := List.mem_map.1 h
    obtain ⟨p, hp, hkind, -⟩ := exists_stretch_of_mem_layOut _ _ _ hq
    obtain ⟨_, _, rfl⟩ := List.mem_map.1 hp
    exact hkind
  · rw [List.mem_singleton.1 h]

theorem carved_of_linkForm?_eq_none {k : Token} (h : k.kind.linkForm? = none) : k.carved = [k] := by
  rw [carved, h]

end Token

/-- Cutting runs before they are laid out is carving the tokens of whole runs. -/
theorem layOut_stretches_eq_flatMap_carved (offset start : Nat) (runs : List Run) :
    layOut offset start (stretches runs) =
      (layOut offset start (stretchesBy Run.whole runs)).flatMap Token.carved := by
  induction runs generalizing start with
  | nil => rfl
  | cons r runs ih =>
    have hpieces : stretchText (r.pieces.map fun p => (r.kind, p)) = r.text := by
      rw [stretchText, List.flatMap_map]
      exact r.flatMap_text_pieces
    have hr : layOut offset start (r.pieces.map fun p => (r.kind, p)) =
        Token.carved ⟨r.kind, r.text, start, offset + start, false⟩ := by
      unfold Run.pieces Token.carved
      cases hform : r.kind.linkForm? with
      | none => rfl
      | some form =>
        have hbehind := layOut_behind offset 0 ((Link.carve form r.text).map fun p => (r.kind, p)) start
        rw [Nat.zero_add] at hbehind
        exact hbehind
    have hcons : stretches (r :: runs) = (r.pieces.map fun p => (r.kind, p)) ++ stretches runs := rfl
    rw [hcons, layOut_append, hpieces, hr, ih]
    rfl

namespace Language

/-- A text is lexed into runs: as long as links are not carved out of them, its tokens are of the kinds of the runs and
hold their texts, one after the other, and cover the text; carved, they are the tokens of the text. -/
def LexesInto (l : Language) (t : Text) (state : LineState) (offset : Nat) (runs : List Run)
    (next : LineState) : Prop :=
  ∃ tokens, l.Emits Run.whole t state offset ⟨tokens, next⟩ ∧
    tokens.map (fun k => (⟨k.kind, k.text⟩ : Run)) = runs ∧ Covers offset t tokens ∧
    l.tokenize t state offset = ⟨tokens.flatMap Token.carved, next⟩

theorem lexesInto_of_scan {l : Language} {t : Text} {state next : LineState} {runs : List Run}
    (h : l.scan state t = (runs, next)) (offset : Nat) : l.LexesInto t state offset runs next := by
  have hruns : (l.scan state t).1 = runs := by rw [h]
  have hwhole : ∀ p ∈ stretchesBy Run.whole runs, p.2.text ≠ [] := by
    intro p hp
    obtain ⟨r, hr, hp⟩ := List.mem_flatMap.1 hp
    obtain rfl := List.mem_singleton.1 hp
    exact ne_nil_of_mem_scan (hruns ▸ hr)
  have htext : stretchText (stretchesBy Run.whole runs) = t := by
    rw [stretchText_stretchesBy Run.flatMap_text_whole, ← hruns, l.textOf_scan]
  have hcovers := covers_layOut offset hwhole
  rw [htext] at hcovers
  refine ⟨_, (l.emits_iff Run.flatMap_text_whole t state offset _).2 (by rw [h]), ?_, hcovers, ?_⟩
  · rw [map_run_layOut]
    simp [stretchesBy, Run.whole, List.map_flatMap]
  · rw [tokenize, h, ← layOut_stretches_eq_flatMap_carved]
    rfl

end Language

/-- Cutting links out of the runs of a text as they end is carving the tokens that it has without: both loops
end, with the same line state, and each token keeps its kind and its place but for being cut. Only a token
whose kind may hold links is, which is never a fault, and no other token is a link. -/
theorem carving_conservative (l : Language) (t : Text) (state : LineState) (offset : Nat) :
    let base := l.uncarved t state offset
    let lexed := l.tokenize t state offset
    (∀ out, l.Emits Run.whole t state offset out ↔ out = base) ∧
    (∀ out, l.Emits Run.pieces t state offset out ↔ out = lexed) ∧
    lexed.next = base.next ∧
    lexed.tokens = base.tokens.flatMap Token.carved ∧
    (∀ k ∈ base.tokens, k.link = false ∧ (∀ piece ∈ k.carved, piece.kind = k.kind) ∧
      (k.kind.linkForm? = none → k.carved = [k])) ∧
    (∀ k ∈ lexed.tokens, k.kind.linkForm? = none → k ∈ base.tokens ∧ k.link = false) ∧
    ∀ k ∈ lexed.tokens, k.kind.isError = true → k ∈ base.tokens ∧ k.link = false := by
  intro base lexed
  have htokens : lexed.tokens = base.tokens.flatMap Token.carved :=
    layOut_stretches_eq_flatMap_carved offset 0 (l.scan state t).1
  have hplain : ∀ k ∈ base.tokens, k.link = false := by
    intro k hk
    obtain ⟨p, hp, -, -, hlink⟩ := exists_stretch_of_mem_layOut offset 0 _ hk
    obtain ⟨r, -, hp⟩ := List.mem_flatMap.1 hp
    rw [hlink]
    simp only [Run.whole, List.map_cons, List.map_nil, List.mem_singleton] at hp
    rw [hp]
  have hkept : ∀ k ∈ lexed.tokens, k.kind.linkForm? = none → k ∈ base.tokens ∧ k.link = false := by
    intro k hk hform
    rw [htokens] at hk
    obtain ⟨k', hk', hpiece⟩ := List.mem_flatMap.1 hk
    rw [Token.kind_of_mem_carved hpiece] at hform
    rw [Token.carved_of_linkForm?_eq_none hform, List.mem_singleton] at hpiece
    rw [hpiece]
    exact ⟨hk', hplain k' hk'⟩
  refine ⟨l.emits_iff Run.flatMap_text_whole t state offset,
    l.emits_iff Run.flatMap_text_pieces t state offset, rfl, htokens, ?_, hkept, ?_⟩
  · intro k hk
    exact ⟨hplain k hk, fun _ => Token.kind_of_mem_carved, Token.carved_of_linkForm?_eq_none⟩
  · intro k hk herror
    have hform : ∀ kind : Kind, kind.isError = true → kind.linkForm? = none := by
      intro kind
      cases kind <;> decide
    exact hkept k hk (hform k.kind herror)

end DoomLex
