/-
Runs and tokens in their surroundings: properties of a stretch of one kind together with the text before it
and the text after it. A machine upholds such a property if an invariant of its state, of the pending run and
of the text before that gives it for each run that ends; one round at a time is enough to show it for a whole
scan. What is kept when a stretch is cut into pieces, if its kind may hold links, carries over from the runs
to the tokens.
-/
import DoomLex.Proofs.Lexing.Literals
import DoomLex.Proofs.Lexing.Pushback
import DoomLex.Proofs.Lexing.Stretches

namespace DoomLex

namespace Text

/-- The line ends before the text. -/
def AtLineEnd (after : Text) : Prop := ∀ c ∈ after.head?, c = '\n'

/-- A line starts after the text. -/
def AtLineStart (before : Text) : Prop := ∀ c ∈ before.getLast?, c = '\n'

theorem atLineEnd_nil : AtLineEnd [] := fun _ h => nomatch h

theorem atLineEnd_newline (t : Text) : AtLineEnd ('\n' :: t) := fun _ h => (Option.some.inj h).symm

theorem atLineStart_nil : AtLineStart [] := fun _ h => nomatch h

theorem atLineStart_newline (t : Text) : AtLineStart (t ++ ['\n']) := by
  intro c hc
  rw [List.getLast?_concat] at hc
  exact (Option.some.inj hc).symm

end Text

/-- A property of a stretch of a kind: of the text before it, its kind, its text and the text after it. -/
abbrev Surrounded := Text → Kind → Text → Text → Prop

/-! ## Each run -/

namespace Run

variable {P : Surrounded} {before after : Text}

/-- Each of the runs has the property, between the other ones and what stands before and after them all. -/
def Each (P : Surrounded) (before : Text) (runs : List Run) (after : Text) : Prop :=
  ∀ first r later, runs = first ++ r :: later →
    P (before ++ textOf first) r.kind r.text (textOf later ++ after)

theorem each_nil : Each P before [] after := by
  intro first r later h
  exact absurd h.symm (List.append_ne_nil_of_right_ne_nil _ (List.cons_ne_nil _ _))

theorem each_cons {r : Run} {runs : List Run} :
    Each P before (r :: runs) after ↔
      P before r.kind r.text (textOf runs ++ after) ∧ Each P (before ++ r.text) runs after := by
  constructor
  · intro h
    refine ⟨?_, ?_⟩
    · have hr := h [] r runs rfl
      rwa [textOf_nil, List.append_nil] at hr
    · rintro first r' later rfl
      have hr := h (r :: first) r' later rfl
      rwa [textOf_cons, ← List.append_assoc] at hr
  · rintro ⟨hr, hruns⟩ first r' later h
    rcases List.cons_eq_append_iff.1 h with ⟨rfl, h⟩ | ⟨first, rfl, rfl⟩
    · obtain ⟨rfl, rfl⟩ := List.cons.inj h
      rwa [textOf_nil, List.append_nil]
    · have hr' := hruns first r' later rfl
      rwa [textOf_cons, ← List.append_assoc]

theorem each_append {runs runs' : List Run} :
    Each P before (runs ++ runs') after ↔
      Each P before runs (textOf runs' ++ after) ∧ Each P (before ++ textOf runs) runs' after := by
  induction runs generalizing before with
  | nil => simp [each_nil]
  | cons r runs ih =>
    rw [List.cons_append, each_cons, each_cons, ih, textOf_append, textOf_cons, List.append_assoc,
      List.append_assoc, and_assoc]

theorem each_ofPending {kind : Text → Kind} {pending : Text} :
    Each P before (ofPending kind pending.reverse) after ↔
      (pending ≠ [] → P before (kind pending) pending after) := by
  unfold ofPending
  by_cases hp : pending = []
  · simp [hp, each_nil]
  · simp [hp, each_cons, each_nil]

end Run

/-! ## Machines that uphold a property -/

namespace Machine

variable {σ : Type} {m : Machine σ} {Inv : Text → σ → Text → Prop} {P : Surrounded}

/-- The runs that end at a character have the property, and the invariant holds after it. -/
def UpholdsAt (m : Machine σ) (Inv : Text → σ → Text → Prop) (P : Surrounded) (before : Text) (s : σ)
    (pending : Text) (c : Char) : Prop :=
  let r := m.react s pending.reverse c
  (∀ rest, Run.Each P before r.done (r.pending.reverse ++ rest)) ∧
    Inv (before ++ Run.textOf r.done) r.next r.pending.reverse

/-- A machine that upholds a property by an invariant of the text before the pending run, the state and the
pending run. -/
structure Upholds (m : Machine σ) (Inv : Text → σ → Text → Prop) (P : Surrounded) : Prop where
  enter : ∀ {before} state, before.AtLineStart → Inv before (m.enter state) []
  newline : ∀ before after, P before .whitespace ['\n'] after
  react : ∀ {before s pending c}, c ≠ '\n' → Inv before s pending → m.UpholdsAt Inv P before s pending c
  last : ∀ {before s pending after}, Inv before s pending → pending ≠ [] → after.AtLineEnd →
    P before (m.lastLabel s pending) pending after

section Answers

variable {before pending pending' : Text} {s s' : σ} {c : Char} {done : List Run}

theorem upholdsAt_of_react (h : m.react s pending.reverse c = ⟨done, s', pending'.reverse⟩)
    (heach : ∀ rest, Run.Each P before done (pending' ++ rest))
    (hinv : Inv (before ++ Run.textOf done) s' pending') : m.UpholdsAt Inv P before s pending c := by
  unfold UpholdsAt
  rw [h]
  simp only [List.reverse_reverse]
  exact ⟨heach, hinv⟩

theorem upholdsAt_of_take (h : m.answer s c = .take s') (hinv : Inv before s' (pending ++ [c])) :
    m.UpholdsAt Inv P before s pending c := by
  have hreact : m.react s pending.reverse c = ⟨[], s', (pending ++ [c]).reverse⟩ := by
    rw [react_of_take h, List.reverse_concat]
  refine upholdsAt_of_react hreact (fun _ => Run.each_nil) ?_
  rwa [Run.textOf_nil, List.append_nil]

theorem upholdsAt_of_close {kind : Kind} (h : m.answer s c = .close kind s')
    (hrun : ∀ rest, P before kind (pending ++ [c]) rest) (hinv : Inv (before ++ (pending ++ [c])) s' []) :
    m.UpholdsAt Inv P before s pending c := by
  have hreact : m.react s pending.reverse c = ⟨[⟨kind, pending ++ [c]⟩], s', [].reverse⟩ := by
    rw [react_of_close h, List.reverse_cons, List.reverse_reverse]
    rfl
  refine upholdsAt_of_react hreact ?_ ?_
  · intro rest
    exact Run.each_cons.2 ⟨hrun _, Run.each_nil⟩
  · rwa [Run.textOf_cons, Run.textOf_nil, List.append_nil]

theorem upholdsAt_of_split (h : m.answer s c = .split s')
    (hrun : pending ≠ [] → ∀ rest, P before (m.label s pending) pending (c :: rest))
    (hinv : Inv (before ++ pending) s' [c]) : m.UpholdsAt Inv P before s pending c := by
  have hreact : m.react s pending.reverse c =
      ⟨Run.ofPending (m.label s) pending.reverse, s', [c].reverse⟩ := by
    simp [react, absorb, h]
  refine upholdsAt_of_react hreact ?_ ?_
  · intro rest
    exact Run.each_ofPending.2 fun hp => hrun hp rest
  · rwa [Run.textOf_ofPending, List.reverse_reverse]

/-- Where the pending run is cut off, the character is shown again with nothing pending. -/
theorem upholdsAt_of_cut (h : m.answer s c = .cut s') (hconsumes : (m.answer s' c).rewinds = false)
    (hrun : pending ≠ [] → ∀ rest, P before (m.label s pending) pending (c :: rest))
    (hnext : m.UpholdsAt Inv P (before ++ pending) s' [] c) : m.UpholdsAt Inv P before s pending c := by
  obtain ⟨heach, hinv⟩ := hnext
  have htext := textOf_react m s' [] c
  unfold UpholdsAt
  rw [react_of_cut h hconsumes]
  constructor
  · intro rest
    refine Run.each_append.2 ⟨Run.each_ofPending.2 fun hp => ?_, ?_⟩
    · rw [← List.append_assoc, htext]
      exact hrun hp rest
    · rw [Run.textOf_ofPending, List.reverse_reverse]
      exact heach rest
  · rw [Run.textOf_append, Run.textOf_ofPending, List.reverse_reverse, ← List.append_assoc]
    exact hinv

end Answers

section Literals

variable {before pending : Text} {lit : Literal → σ} {neutral : σ} {wide : Bool} {q q' : Literal} {c : Char}

/-- A character that goes on with a literal is taken, be it shown once or twice. -/
theorem upholdsAt_of_advance (hq : m.answer (lit q) c = (q.step wide c).answer lit neutral)
    (hbad : m.answer (lit .bad) c = (Literal.step wide .bad c).answer lit neutral)
    (h : q.advance? wide c = some q') (hinv : Inv before (lit q') (pending ++ [c])) :
    m.UpholdsAt Inv P before (lit q) pending c := by
  have hreact : m.react (lit q) pending.reverse c = ⟨[], lit q', (pending ++ [c]).reverse⟩ := by
    rw [react_of_advance hq hbad h, List.reverse_concat]
  refine upholdsAt_of_react hreact (fun _ => Run.each_nil) ?_
  rwa [Run.textOf_nil, List.append_nil]

theorem upholdsAt_of_closing (hq : m.answer (lit q) '"' = (q.step wide '"').answer lit neutral)
    (hbad : m.answer (lit .bad) '"' = (Literal.step wide .bad '"').answer lit neutral)
    (h : q.takes = false) (hrun : ∀ rest, P before q.closedKind (pending ++ ['"']) rest)
    (hinv : Inv (before ++ (pending ++ ['"'])) neutral []) : m.UpholdsAt Inv P before (lit q) pending '"' := by
  have hreact : m.react (lit q) pending.reverse '"' = ⟨[⟨q.closedKind, pending ++ ['"']⟩], neutral, [].reverse⟩ := by
    rw [react_of_closing hq hbad h, List.reverse_cons, List.reverse_reverse]
    rfl
  refine upholdsAt_of_react hreact ?_ ?_
  · intro rest
    exact Run.each_cons.2 ⟨hrun _, Run.each_nil⟩
  · rwa [Run.textOf_cons, Run.textOf_nil, List.append_nil]

end Literals

/-- What a machine upholds in each round it upholds in a scan. -/
theorem Upholds.each_scanFrom (hm : m.Upholds Inv P) {before pending : Text} {s : σ} (h : Inv before s pending)
    (t : Text) : Run.Each P before (m.scanFrom s pending.reverse t).1 [] := by
  -- the invariant goes from round to round, and starts anew at each line break
  induction t generalizing before s pending with
  | nil => exact Run.each_ofPending.2 fun hp => hm.last h hp Text.atLineEnd_nil
  | cons c t ih =>
    by_cases hc : c = '\n'
    · subst hc
      have hstart : (before ++ pending ++ ['\n']).AtLineStart := Text.atLineStart_newline _
      have hnext := ih (hm.enter (m.leave s) hstart)
      rw [scanFrom_newline, Run.each_append, Run.each_cons, Run.textOf_ofPending, List.reverse_reverse]
      refine ⟨Run.each_ofPending.2 fun hp => hm.last h hp (Text.atLineEnd_newline _), ?_, hnext⟩
      exact hm.newline _ _
    · obtain ⟨heach, hinv⟩ := hm.react hc h
      have hnext := ih hinv
      rw [List.reverse_reverse] at hnext
      rw [scanFrom_cons m hc, Run.each_append]
      refine ⟨?_, hnext⟩
      rw [textOf_scanFrom, List.append_nil]
      exact heach t

theorem Upholds.each_scan (hm : m.Upholds Inv P) (state : LineState) (t : Text) :
    Run.Each P [] (m.scan state t).1 [] :=
  hm.each_scanFrom (hm.enter state Text.atLineStart_nil) t

end Machine

/-! ## Each token -/

/-- A property that the pieces of a stretch have if the stretch has it, for kinds that may hold links. -/
def Surrounded.Cuts (P : Surrounded) : Prop :=
  ∀ {before kind x y z after}, kind.linkForm?.isSome = true → P before kind (x ++ y ++ z) after →
    P (before ++ x) kind y (z ++ after)

namespace Run

/-- The runs cut into pieces. -/
def cutUp (runs : List Run) : List Run := runs.flatMap fun r => r.pieces.map fun p => ⟨r.kind, p.text⟩

variable {P : Surrounded} {before after : Text}

theorem textOf_pieces (r : Run) : textOf (r.pieces.map fun p => ⟨r.kind, p.text⟩) = r.text := by
  rw [textOf, List.flatMap_map]
  exact r.flatMap_text_pieces

theorem textOf_cutUp (runs : List Run) : textOf (cutUp runs) = textOf runs := by
  induction runs with
  | nil => rfl
  | cons r runs ih =>
    rw [textOf_cons, ← ih, ← textOf_pieces r, ← textOf_append]
    rfl

theorem each_pieces (hP : P.Cuts) {r : Run} (h : P before r.kind r.text after) :
    Each P before (r.pieces.map fun p => ⟨r.kind, p.text⟩) after := by
  cases hform : r.kind.linkForm? with
  | none =>
    have hpieces : r.pieces = [⟨r.text, false⟩] := by simp [pieces, hform]
    rw [hpieces, List.map_singleton, each_cons]
    exact ⟨h, each_nil⟩
  | some form =>
    intro first p later hsplit
    have hkind : p.kind = r.kind := by
      have hmem : p ∈ r.pieces.map fun p => (⟨r.kind, p.text⟩ : Run) := by simp [hsplit]
      obtain ⟨q, -, rfl⟩ := List.mem_map.1 hmem
      rfl
    have htext : r.text = textOf first ++ p.text ++ textOf later := by
      rw [← textOf_pieces r, hsplit, textOf_append, textOf_cons, List.append_assoc]
    rw [htext] at h
    rw [hkind]
    exact hP (by simp [hform]) h

theorem Each.cutUp (hP : P.Cuts) {runs : List Run} (h : Each P before runs after) :
    Each P before (cutUp runs) after := by
  induction runs generalizing before with
  | nil => exact each_nil
  | cons r runs ih =>
    have hcons : Run.cutUp (r :: runs) = (r.pieces.map fun p => ⟨r.kind, p.text⟩) ++ Run.cutUp runs := rfl
    obtain ⟨hr, hruns⟩ := each_cons.1 h
    rw [hcons, each_append, textOf_cutUp, textOf_pieces]
    exact ⟨each_pieces hP hr, ih hruns⟩

end Run

namespace Token

/-- Each of the tokens has the property, between the tokens before it and those after it. -/
def Each (P : Surrounded) (tokens : List Token) : Prop :=
  ∀ first k later, tokens = first ++ k :: later →
    P (first.flatMap (·.text)) k.kind k.text (later.flatMap (·.text))

/-- The token that a character of a text is in. The character stands between `front` and `back` in the text and behind
`inside` in the token; `after` is what follows the token. -/
structure Has (tokens : List Token) (front : Text) (c : Char) (back : Text) (k : Token) (inside after : Text) :
    Prop where
  tokens : ∃ first later, tokens = first ++ k :: later ∧ front = first.flatMap (·.text) ++ inside ∧
    after = later.flatMap (·.text)
  text : ∃ rest, k.text = inside ++ c :: rest ∧ back = rest ++ after

/-- Each character of the texts of tokens is in one of them. -/
theorem exists_has {tokens : List Token} {front back : Text} {c : Char}
    (h : tokens.flatMap (·.text) = front ++ c :: back) :
    ∃ k inside after, Has tokens front c back k inside after := by
  induction tokens generalizing front with
  | nil => exact absurd h.symm (List.append_ne_nil_of_right_ne_nil _ (List.cons_ne_nil _ _))
  | cons k tokens ih =>
    have hlater : ∀ front', tokens.flatMap (·.text) = front' ++ c :: back → front = k.text ++ front' →
        ∃ k' inside after, Has (k :: tokens) front c back k' inside after := by
      rintro front' htexts rfl
      obtain ⟨k', inside, after, ⟨first, later, rfl, rfl, hafter⟩, htext⟩ := ih htexts
      exact ⟨k', inside, after, ⟨k :: first, later, rfl, (List.append_assoc ..).symm, hafter⟩, htext⟩
    -- the character is in the first token, unless all of that stands before it
    rw [List.flatMap_cons] at h
    rcases List.append_eq_append_iff.1 h with ⟨front', hfront, htexts⟩ | ⟨rest, htext, hback⟩
    · exact hlater front' htexts hfront
    · cases rest with
      | nil => exact hlater [] hback.symm (by rw [htext, List.append_nil, List.append_nil])
      | cons d rest =>
        obtain ⟨rfl, rfl⟩ := List.cons.inj hback
        exact ⟨k, front, _, ⟨[], tokens, rfl, rfl, rfl⟩, rest, htext, rfl⟩

theorem Each.of_has {P : Surrounded} {tokens : List Token} {front back inside after : Text} {c : Char} {k : Token}
    (h : Each P tokens) (hk : Has tokens front c back k inside after) :
    ∃ before rest, front = before ++ inside ∧ k.text = inside ++ c :: rest ∧ P before k.kind k.text after := by
  obtain ⟨⟨first, later, htokens, hfront, rfl⟩, rest, htext, -⟩ := hk
  exact ⟨_, rest, hfront, htext, h first k later htokens⟩

theorem map_run_tokensOf (offset : Nat) (runs : List Run) :
    (tokensOf offset runs).map (fun k => (⟨k.kind, k.text⟩ : Run)) = Run.cutUp runs := by
  rw [tokensOf_eq_layOut, map_run_layOut]
  simp [stretches, Run.cutUp, List.map_flatMap, Function.comp_def]

/-- What holds of each run, and is kept by carving, holds of each token. -/
theorem each_tokensOf {P : Surrounded} (hP : P.Cuts) {runs : List Run} (h : Run.Each P [] runs [])
    (offset : Nat) : Each P (tokensOf offset runs) := by
  intro first k later hsplit
  have hruns := map_run_tokensOf offset runs
  rw [hsplit, List.map_append, List.map_cons] at hruns
  have hk := h.cutUp hP _ _ _ hruns.symm
  rw [List.nil_append, List.append_nil] at hk
  simpa [Run.textOf, List.flatMap_map] using hk

end Token

end DoomLex
