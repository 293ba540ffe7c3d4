/-
Stretches of a text: characters that a machine takes one after the other only move it from state to
state and lengthen the pending run. What is so known of the runs of a text carries over to its tokens:
those of one run are of its kind and cover its text, and those of runs in a row follow each other.
-/
import DoomLex.Proofs.Lexing.Coverage

namespace DoomLex

/-! ## Languages with braces -/

namespace Language

/-- The dialect with braces in which a language is written, if it is one of them. -/
def dialect? : Language → Option Dialect
  | decoHack => some .patch
  | rookScript | wadScript | doomMake => some .script
  | wadMerge | deuTex | defSwAni => none

theorem scan_of_dialect {l : Language} {d : Dialect} (h : l.dialect? = some d) (state : LineState)
    (t : Text) : l.scan state t = (Braces.machine d).scan state t := by
  cases l with
  | decoHack | rookScript | wadScript | doomMake => cases h; rfl
  | wadMerge | deuTex | defSwAni => cases h

end Language

/-! ## Characters taken in a row -/

namespace Machine

variable {σ : Type} {m : Machine σ}

/-- The machine takes a text into the pending run, character by character, on the way from one state
to another. -/
inductive Takes (m : Machine σ) : σ → Text → σ → Prop where
  | nil {s : σ} : Takes m s [] s
  | cons {s s' s'' : σ} {c : Char} {t : Text} (hc : c ≠ '\n') (h : m.answer s c = .take s')
      (ht : Takes m s' t s'') : Takes m s (c :: t) s''

theorem Takes.concat {s s' s'' : σ} {t : Text} {c : Char} (h : m.Takes s t s') (hc : c ≠ '\n')
    (hlast : m.answer s' c = .take s'') : m.Takes s (t ++ [c]) s'' := by
  induction h with
  | nil => exact .cons hc hlast .nil
  | cons hc' h' _ ih => exact .cons hc' h' (ih hlast)

theorem react_of_take {s s' : σ} {c : Char} (h : m.answer s c = .take s') (pending : Text) :
    m.react s pending c = ⟨[], s', c :: pending⟩ := by
  simp [react, absorb, h]

theorem react_of_close {s s' : σ} {c : Char} {kind : Kind} (h : m.answer s c = .close kind s')
    (pending : Text) : m.react s pending c = ⟨[⟨kind, (c :: pending).reverse⟩], s', []⟩ := by
  simp [react, absorb, h]

theorem scanFrom_of_takes {s s' : σ} {u : Text} (h : m.Takes s u s') (pending rest : Text) :
    m.scanFrom s pending (u ++ rest) = m.scanFrom s' (u.reverse ++ pending) rest := by
  induction h generalizing pending with
  | nil => rfl
  | cons hc h _ ih => simp [scanFrom_cons m hc, react_of_take h, ih]

/-- A stretch that is taken to the end of the text is part of its last run. -/
theorem scanFrom_of_takes_all {s s' : σ} {u : Text} (h : m.Takes s u s') (pending : Text) :
    m.scanFrom s pending u = (Run.ofPending (m.lastLabel s') (u.reverse ++ pending), m.leave s') := by
  have hall := scanFrom_of_takes h pending []
  rwa [List.append_nil] at hall

/-- A stretch that is taken and a character that closes the pending run make one run. -/
theorem scanFrom_of_takes_close {s s' s'' : σ} {u : Text} {c : Char} {kind : Kind} (h : m.Takes s u s')
    (hc : c ≠ '\n') (hclose : m.answer s' c = .close kind s'') (pending rest : Text) :
    m.scanFrom s pending (u ++ c :: rest) =
      (⟨kind, pending.reverse ++ u ++ [c]⟩ :: (m.scanFrom s'' [] rest).1, (m.scanFrom s'' [] rest).2) := by
  rw [scanFrom_of_takes h, scanFrom_cons m hc, react_of_close hclose]
  simp

end Machine

/-! ## The tokens of stretches -/

/-- Runs that are not empty are covered by their tokens. -/
theorem covers_tokensOf (offset : Nat) (runs : List Run) (hne : ∀ r ∈ runs, r.text ≠ []) :
    Covers offset (Run.textOf runs) (tokensOf offset runs) := by
  have h := covers_layOut offset (fun p hp => ne_nil_of_mem_stretches hne hp)
  rwa [stretchText_stretches] at h

theorem Covers.slice_stop {offset : Nat} {t : Text} {tokens : List Token} (h : Covers offset t tokens)
    {k : Token} (hk : k ∈ tokens) : Text.slice? t k.start k.stop = some k.text := by
  rw [← Token.last_add_one (h.nonempty k hk).1]
  exact h.slice k hk

theorem Language.covers_tokenize (l : Language) (t : Text) (state : LineState) (offset : Nat) :
    Covers offset t (l.tokenize t state offset).tokens := by
  have h := covers_tokensOf offset (l.scan state t).1 (fun _ hr => Language.ne_nil_of_mem_scan hr)
  rwa [l.textOf_scan] at h

theorem exists_run_of_mem_tokensOf {offset : Nat} {runs : List Run} {k : Token}
    (h : k ∈ tokensOf offset runs) : ∃ r ∈ runs, k.kind = r.kind := by
  obtain ⟨p, hp, hk, -⟩ := exists_stretch_of_mem_layOut offset 0 _ h
  obtain ⟨r, hr, hp⟩ := List.mem_flatMap.1 hp
  obtain ⟨q, -, rfl⟩ := List.mem_map.1 hp
  exact ⟨r, hr, hk⟩

/-- Tokens of one kind that cover a text, which starts at byte `offset` of the document. -/
structure Fills (offset : Nat) (kind : Kind) (t : Text) (tokens : List Token) : Prop where
  covers : Covers offset t tokens
  kind_eq : ∀ k ∈ tokens, k.kind = kind

theorem fills_tokensOf_singleton (offset : Nat) (kind : Kind) {t : Text} (ht : t ≠ []) :
    Fills offset kind t (tokensOf offset [⟨kind, t⟩]) := by
  constructor
  · have h := covers_tokensOf offset [⟨kind, t⟩] (fun r hr => List.mem_singleton.1 hr ▸ ht)
    rwa [Run.textOf_cons, Run.textOf_nil, List.append_nil] at h
  · intro k hk
    obtain ⟨r, hr, hkind⟩ := exists_run_of_mem_tokensOf hk
    rw [hkind, List.mem_singleton.1 hr]

/-- The tokens of a pending run fill its text; there are none if there is no text. -/
theorem fills_tokensOf_ofPending (offset : Nat) (kind : Text → Kind) (t : Text) :
    Fills offset (kind t) t (tokensOf offset (Run.ofPending kind t.reverse)) := by
  constructor
  · have h := covers_tokensOf offset _ (fun r (hr : r ∈ Run.ofPending kind t.reverse) =>
      Run.ne_nil_of_mem_ofPending hr)
    rwa [Run.textOf_ofPending, List.reverse_reverse] at h
  · intro k hk
    obtain ⟨r, hr, hkind⟩ := exists_run_of_mem_tokensOf hk
    rw [hkind, Run.kind_of_mem_ofPending hr, List.reverse_reverse]

namespace Language

variable (l : Language)

/-- Where the scan of a text falls into runs and the scan of what follows them from the neutral state,
so does its lexing. -/
theorem tokenize_of_scan {state : LineState} {t after : Text} (runs : List Run)
    (h : l.scan state t = (runs ++ (l.scan .neutral after).1, (l.scan .neutral after).2)) (offset : Nat) :
    l.tokenize t state offset =
      let width := Text.width (Run.textOf runs)
      let rest := l.tokenize after .neutral (offset + width)
      ⟨tokensOf offset runs ++ rest.tokens.map (·.behind width), rest.next⟩ := by
  simp only [tokenize, h, tokensOf_append]

/-- A text starts with a stretch of one kind, after which it is lexed from the neutral state as a text
of its own. -/
def LexesAs (state : LineState) (offset : Nat) (kind : Kind) (stretch after : Text) : Prop :=
  ∃ tokens, Fills offset kind stretch tokens ∧
    l.tokenize (stretch ++ after) state offset =
      let width := Text.width stretch
      let rest := l.tokenize after .neutral (offset + width)
      ⟨tokens ++ rest.tokens.map (·.behind width), rest.next⟩

/-- A text is of one kind as a whole and leaves the given state. -/
def LexesWhole (state : LineState) (offset : Nat) (kind : Kind) (t : Text) (next : LineState) : Prop :=
  Fills offset kind t (l.tokenize t state offset).tokens ∧ (l.tokenize t state offset).next = next

variable {l}

theorem lexesAs_of_scan {state : LineState} {stretch after : Text} {kind : Kind} (hne : stretch ≠ [])
    (h : l.scan state (stretch ++ after) =
      (⟨kind, stretch⟩ :: (l.scan .neutral after).1, (l.scan .neutral after).2)) (offset : Nat) :
    l.LexesAs state offset kind stretch after := by
  have htokens := l.tokenize_of_scan [⟨kind, stretch⟩] h offset
  rw [Run.textOf_cons, Run.textOf_nil, List.append_nil] at htokens
  exact ⟨_, fills_tokensOf_singleton offset kind hne, htokens⟩

theorem lexesWhole_of_scan {state next : LineState} {t : Text} {kind : Text → Kind}
    (h : l.scan state t = (Run.ofPending kind t.reverse, next)) (offset : Nat) :
    l.LexesWhole state offset (kind t) t next := by
  simp only [LexesWhole, tokenize, h, and_true]
  exact fills_tokensOf_ofPending offset kind t

end Language

end DoomLex
