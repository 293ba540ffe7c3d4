/-
Literals wherever they stand. Two machines scan them, one of which lets a literal fall into pieces around
script arguments; both are hosts of the scan of a literal, which decides where the literal ends and whether
it is bad. From each place between tokens at which a quote follows, the literal so reaches as far as the
pairs of its backslashes say, its kind is the one that its escapes and its end say, and the text after it
is lexed from the neutral state.
-/
import DoomLex.Proofs.Lexing.Escapes
import DoomLex.Proofs.Lexing.Places
import DoomLex.Proofs.Lexing.Stretches

namespace DoomLex

/-- The text before its first line break. -/
def Text.firstLine (t : Text) : Text := t.takeWhile (· != '\n')

theorem Text.firstLine_cons {c : Char} (hc : c ≠ '\n') (t : Text) :
    Text.firstLine (c :: t) = c :: Text.firstLine t :=
  List.takeWhile_cons_of_pos (bne_iff_ne.2 hc)

/-! ## Showing a character to a literal -/

namespace Literal

/-- What comes after a literal in the text after its opening quote; no literal reaches over a line
break. -/
def after (taken : Bool) (t : Text) : Text := t.drop (extent taken (Text.firstLine t)).length

/-- The answer of a machine that scans a literal in the states `lit`, by what the character does to the
literal. -/
def Outcome.answer {σ : Type} (lit : Literal → σ) (neutral : σ) : Outcome → Answer σ
  | stay q => .take (lit q)
  | again q => .again (lit q)
  | closed kind => .close kind neutral

variable {wide : Bool} {q q' : Literal} {c : Char}

/-- A character that goes on with a literal does so at once, or is read again as one of a bad literal. -/
theorem step_of_advance (h : q.advance? wide c = some q') :
    q.step wide c = .stay q' ∨ q.step wide c = .again bad ∧ step wide bad c = .stay q' := by
  unfold advance? at h
  cases hstep : q.step wide c with
  | stay r =>
    rw [hstep] at h
    exact .inl (congrArg _ (Option.some.inj h))
  | again r =>
    obtain rfl := (step_eq_again hstep).2
    rw [hstep] at h
    cases hbad : step wide bad c with
    | stay r' =>
      simp only [hbad] at h
      exact .inr ⟨rfl, congrArg _ (Option.some.inj h)⟩
    | again r' => simp [hbad] at h
    | closed kind => simp [hbad] at h
  | closed kind => simp [hstep] at h

theorem step_of_closing (h : q.takes = false) :
    q.step wide '"' = .closed q.closedKind ∨
      q.step wide '"' = .again bad ∧ step wide bad '"' = .closed q.closedKind := by
  cases q with
  | body | bad => exact .inl rfl
  | digits n => exact .inr ⟨by simp [step, not_isHexDigit_quote], rfl⟩
  | escape | badEscape => cases h

end Literal

/-! ## Hosts of literals -/

namespace Machine

variable {σ : Type} {m : Machine σ} {wide : Bool} {q q' : Literal} {c : Char}

section Outcome

variable {lit : Literal → σ} {neutral : σ}

theorem react_of_advance (hq : m.answer (lit q) c = (q.step wide c).answer lit neutral)
    (hbad : m.answer (lit .bad) c = (Literal.step wide .bad c).answer lit neutral)
    (h : q.advance? wide c = some q') (pending : Text) :
    m.react (lit q) pending c = ⟨[], lit q', c :: pending⟩ := by
  rcases Literal.step_of_advance h with hstep | ⟨hstep, hagain⟩
  · rw [hstep] at hq
    exact react_of_take hq pending
  · rw [hstep] at hq
    rw [hagain] at hbad
    rw [react_of_again hq (by rw [hbad]; rfl), react_of_take hbad]

theorem react_of_closing (hq : m.answer (lit q) '"' = (q.step wide '"').answer lit neutral)
    (hbad : m.answer (lit .bad) '"' = (Literal.step wide .bad '"').answer lit neutral)
    (h : q.takes = false) (pending : Text) :
    m.react (lit q) pending '"' = ⟨[⟨q.closedKind, ('"' :: pending).reverse⟩], neutral, []⟩ := by
  rcases Literal.step_of_closing h with hstep | ⟨hstep, hagain⟩
  · rw [hstep] at hq
    exact react_of_close hq pending
  · rw [hstep] at hq
    rw [hagain] at hbad
    rw [react_of_again hq (by rw [hbad]; rfl), react_of_close hbad]

end Outcome

/-- A machine that scans literals: `stands s q` says that it has a literal open in the state `s`, whose
scan stands at `q`. On the way it may end pieces of the literal, of certain kinds. -/
structure HostsLiterals (m : Machine σ) (wide : Bool) (piece : Kind → Prop) (stands : σ → Literal → Prop) :
    Prop where
  neutral : m.leave (m.enter .neutral) = .neutral
  opens : ∃ s, stands s .body ∧ m.answer (m.enter .neutral) '"' = .take s
  goesOn : ∀ {s q c q'}, stands s q → q.advance? wide c = some q' → ∀ pending,
    ∃ pieces s' pending', m.react s pending c = ⟨pieces, s', pending'⟩ ∧ stands s' q' ∧ pending' ≠ [] ∧
      ∀ r ∈ pieces, piece r.kind
  closes : ∀ {s q}, stands s q → q.takes = false → ∀ pending,
    ∃ pieces text, m.react s pending '"' = ⟨pieces ++ [⟨q.closedKind, text⟩], m.enter .neutral, []⟩ ∧
      ∀ r ∈ pieces, piece r.kind
  ends : ∀ {s q}, stands s q → m.leave s = .neutral ∧ ∀ run, m.lastLabel s run = q.openKind

theorem scanFrom_of_firstLine_nil {s : σ} (hneutral : m.leave (m.enter .neutral) = .neutral)
    (hs : m.leave s = .neutral) (pending : Text) {t : Text} (ht : Text.firstLine t = []) :
    m.scanFrom s pending t =
      (Run.ofPending (m.lastLabel s) pending ++ (m.scan .neutral t).1, (m.scan .neutral t).2) := by
  cases t with
  | nil => simp [scan, hs, hneutral, Run.ofPending]
  | cons c t =>
    obtain rfl : c = '\n' := by
      by_contra hc
      rw [Text.firstLine_cons hc] at ht
      cases ht
    have hscan : m.scan .neutral ('\n' :: t) =
        (Run.newline :: (m.scan .neutral t).1, (m.scan .neutral t).2) := by
      rw [scan, scanFrom_newline, hneutral]
      rfl
    rw [scanFrom_newline, hscan, hs]

namespace HostsLiterals

variable {piece : Kind → Prop} {stands : σ → Literal → Prop}

/-- A scan that comes to the end of a literal as the text says, pieces of it before. -/
def EndsOpen (m : Machine σ) (wide : Bool) (piece : Kind → Prop) (q : Literal) (t : Text)
    (outcome : List Run × LineState) : Prop :=
  ∃ pieces last, (∀ r ∈ pieces, piece r.kind) ∧ q.Judged wide (Text.firstLine t) last.kind ∧
    outcome = (pieces ++ last :: (m.scan .neutral (Literal.after q.takes t)).1,
      (m.scan .neutral (Literal.after q.takes t)).2)

theorem endsOpen_of_firstLine_nil (hm : m.HostsLiterals wide piece stands) {s : σ} (hs : stands s q)
    {pending : Text} (hp : pending ≠ []) {t : Text} (ht : Text.firstLine t = []) :
    EndsOpen m wide piece q t (m.scanFrom s pending t) := by
  obtain ⟨hleave, hlabel⟩ := hm.ends hs
  have hafter : Literal.after q.takes t = t := by rw [Literal.after, ht]; rfl
  refine ⟨[], ⟨q.openKind, pending.reverse⟩, List.forall_mem_nil _, ?_, ?_⟩
  · rw [ht]
    exact Literal.judged_nil
  · rw [scanFrom_of_firstLine_nil hm.neutral hleave pending ht, hafter]
    simp [Run.ofPending, hp, hlabel]

/-- An open literal ends where the pairs of its backslashes say, with a run of the kind that its text
says; before that come only pieces, and the rest is scanned from the neutral state. -/
theorem endsOpen_scanFrom (hm : m.HostsLiterals wide piece stands) {s : σ} (hs : stands s q)
    {pending : Text} (hp : pending ≠ []) (t : Text) : EndsOpen m wide piece q t (m.scanFrom s pending t) := by
  induction t generalizing s q pending with
  | nil => exact endsOpen_of_firstLine_nil hm hs hp rfl
  | cons c t ih =>
    by_cases hc : c = '\n'
    · subst hc
      exact endsOpen_of_firstLine_nil hm hs hp rfl
    -- a character either keeps the literal open, and the induction goes on from where it leads, or closes it
    rw [EndsOpen, Text.firstLine_cons hc, scanFrom_cons m hc]
    cases hadv : q.advance? wide c with
    | some q' =>
      obtain ⟨pieces, s', pending', hreact, hs', hp', hpieces⟩ := hm.goesOn hs hadv pending
      obtain ⟨more, last, hmore, hlast, hscan⟩ := ih hs' hp'
      have hafter : Literal.after q.takes (c :: t) = Literal.after q'.takes t := by
        rw [Literal.after, Text.firstLine_cons hc, Literal.extent_cons (Literal.not_closing_of_advance hadv),
          ← Literal.takes_of_advance hadv]
        rfl
      refine ⟨pieces ++ more, last, ?_, hlast.of_advance hadv, ?_⟩
      · intro r hr
        rcases List.mem_append.1 hr with hr | hr
        · exact hpieces r hr
        · exact hmore r hr
      · rw [hreact, hscan, hafter, List.append_assoc]
    | none =>
      obtain ⟨rfl, htakes⟩ := Prod.mk.inj (Literal.advance?_eq_none_iff.1 hadv)
      obtain ⟨pieces, text, hreact, hpieces⟩ := hm.closes hs htakes pending
      have hafter : Literal.after q.takes ('"' :: t) = t := by
        rw [Literal.after, Text.firstLine_cons hc, htakes, Literal.extent_closing]
        rfl
      refine ⟨pieces, ⟨q.closedKind, text⟩, hpieces, Literal.judged_closing htakes _, ?_⟩
      rw [hreact, hafter, List.append_assoc]
      rfl

theorem endsOpen_of_agrees (hm : m.HostsLiterals wide piece stands) {state : LineState} {t rest : Text}
    {x : Position σ} (hx : x.Agrees m state t) (hneutral : x.state = m.enter .neutral)
    (hrest : x.rest = '"' :: rest) :
    ∃ outcome, EndsOpen m wide piece .body rest outcome ∧
      m.scan state t = (x.done ++ outcome.1, outcome.2) := by
  obtain ⟨s, hs, hopen⟩ := hm.opens
  have houtcome := hx.outcome
  rw [hrest, hneutral, hx.clear hneutral, scanFrom_cons m (by decide), react_of_take hopen] at houtcome
  exact ⟨_, endsOpen_scanFrom hm hs (List.cons_ne_nil _ _) rest, houtcome.symm⟩

end HostsLiterals

end Machine

/-! ## The machines host literals -/

theorem Braces.answer_literal (d : Dialect) (q : Literal) (c : Char) :
    (machine d).answer (.literal q) c = (q.step d.wideEscapes c).answer .literal .neutral := by
  show answer d (.literal q) c = _
  simp only [answer]
  cases q.step d.wideEscapes c <;> rfl

theorem Braces.hostsLiterals (d : Dialect) (piece : Kind → Prop) :
    (machine d).HostsLiterals d.wideEscapes piece (fun s q => s = .literal q) where
  neutral := rfl
  opens := ⟨.literal .body, rfl, rfl⟩
  goesOn := by
    rintro _ q c q' rfl hadv pending
    have hreact := Machine.react_of_advance (answer_literal d q c) (answer_literal d .bad c) hadv pending
    exact ⟨[], _, _, hreact, rfl, List.cons_ne_nil _ _, List.forall_mem_nil _⟩
  closes := by
    rintro _ q rfl htakes pending
    have hreact := Machine.react_of_closing (answer_literal d q _) (answer_literal d .bad _) htakes pending
    exact ⟨[], _, hreact, List.forall_mem_nil _⟩
  ends := by
    rintro _ q rfl
    exact ⟨rfl, fun _ => rfl⟩

namespace MergeScript

/-- The states in which a literal is open; within an argument, the literal stands between characters. -/
inductive Stands : Scan → Literal → Prop where
  | literal (q : Literal) : Stands (.literal q) q
  | argument (a : Argument) : Stands (.argument .literal a) .body

theorem answer_literal {q : Literal} {c : Char} (h : ¬ (q = .body ∧ c = '$')) :
    machine.answer (.literal q) c = (q.step true c).answer .literal .neutral := by
  show answer (.literal q) c = _
  simp only [answer, if_neg h]
  cases q.step true c <;> rfl

theorem Argument.step_quote (a : Argument) : a.step '"' = none := by cases a <;> rfl

theorem Argument.step_backslash (a : Argument) : a.step '\\' = none := by cases a <;> rfl

section Hosts

variable {piece : Kind → Prop} {q q' : Literal} {c : Char}

theorem goesOn_literal (hstring : piece .string) (h : q.advance? true c = some q') (pending : Text) :
    ∃ pieces s' pending', machine.react (.literal q) pending c = ⟨pieces, s', pending'⟩ ∧ Stands s' q' ∧
      pending' ≠ [] ∧ ∀ r ∈ pieces, piece r.kind := by
  by_cases hsigil : q = .body ∧ c = '$'
  · -- the sigil ends a piece and starts an argument, within which the literal stands where it stood
    obtain ⟨rfl, rfl⟩ := hsigil
    obtain rfl : Literal.body = q' := Option.some.inj h
    refine ⟨_, _, _, rfl, .argument .sigil, List.cons_ne_nil _ _, ?_⟩
    intro r hr
    exact Run.kind_of_mem_ofPending hr ▸ hstring
  · have hbad : ¬ (Literal.bad = .body ∧ c = '$') := fun h => Literal.noConfusion h.1
    exact ⟨[], _, _, Machine.react_of_advance (answer_literal hsigil) (answer_literal hbad) h pending,
      .literal q', List.cons_ne_nil _ _, List.forall_mem_nil _⟩

theorem closes_literal (h : q.takes = false) (pending : Text) :
    machine.react (.literal q) pending '"' = ⟨[⟨q.closedKind, ('"' :: pending).reverse⟩], .neutral, []⟩ :=
  Machine.react_of_closing (answer_literal (by simp)) (answer_literal (by simp)) h pending

/-- Where a character ends an argument in a literal, it is shown to the literal with nothing pending. -/
theorem react_argument {a : Argument} (h : a.step c = none) (pending : Text) :
    machine.react (.argument .literal a) pending c =
      ⟨Run.ofPending (fun _ => .argument) pending ++ (machine.react (.literal .body) [] c).done,
        (machine.react (.literal .body) [] c).next, (machine.react (.literal .body) [] c).pending⟩ := by
  have hcut : machine.answer (.argument .literal a) c = .cut (.literal .body) := by
    show answer (.argument .literal a) c = _
    simp only [answer, h]
    rfl
  exact Machine.react_of_cut hcut (rewinds_literal (by simp) c) pending

theorem hostsLiterals (hstring : piece .string) (hargument : piece .argument) :
    machine.HostsLiterals true piece Stands where
  neutral := rfl
  opens := ⟨.literal .body, .literal .body, rfl⟩
  goesOn := by
    rintro _ _ c q' (q | a) hadv pending
    · exact goesOn_literal hstring hadv pending
    cases ha : a.step c with
    | some a' =>
      have htake : machine.answer (.argument .literal a) c = .take (.argument .literal a') := by
        show answer (.argument .literal a) c = _
        simp only [answer, ha]
      have hquote : c ≠ '"' := by rintro rfl; rw [a.step_quote] at ha; cases ha
      have hslash : c ≠ '\\' := by rintro rfl; rw [a.step_backslash] at ha; cases ha
      rw [Literal.advance?_body, if_neg hquote, if_neg hslash] at hadv
      obtain rfl := Option.some.inj hadv
      exact ⟨[], _, _, Machine.react_of_take htake pending, .argument a', List.cons_ne_nil _ _,
        List.forall_mem_nil _⟩
    | none =>
      -- the argument ends before the character, which goes on with the literal, maybe as a sigil again
      obtain ⟨pieces, s', pending', hreact, hs', hp', hpieces⟩ := goesOn_literal hstring hadv []
      rw [react_argument ha, hreact]
      refine ⟨_, _, _, rfl, hs', hp', ?_⟩
      intro r hr
      rcases List.mem_append.1 hr with hr | hr
      · exact Run.kind_of_mem_ofPending hr ▸ hargument
      · exact hpieces r hr
  closes := by
    rintro _ _ (q | a) htakes pending
    · exact ⟨[], _, closes_literal htakes pending, List.forall_mem_nil _⟩
    · rw [react_argument a.step_quote, closes_literal rfl]
      refine ⟨_, _, rfl, ?_⟩
      intro r hr
      exact Run.kind_of_mem_ofPending hr ▸ hargument
  ends := by
    rintro _ _ (q | a)
    · exact ⟨rfl, fun _ => rfl⟩
    · exact ⟨rfl, fun _ => rfl⟩

end Hosts

end MergeScript

/-! ## Literals in a text -/

namespace Language

/-- Whether the literals of a language take the escape `\u`; none if it has no literals. -/
def literals? : Language → Option Bool
  | decoHack => some false
  | rookScript | wadScript | doomMake | wadMerge => some true
  | deuTex | defSwAni => none

/-- The kinds of the pieces before the last one of a literal. -/
def IsPiece (l : Language) (kind : Kind) : Prop := l = .wadMerge ∧ (kind = .string ∨ kind = .argument)

/-- The tokens of a literal, by the text of its line after the opening quote: those of its last run, and
those of the pieces before. -/
structure ReadsLiteral (l : Language) (wide : Bool) (line : Text) (pieces last : List Token) : Prop where
  piece : ∀ k ∈ pieces, l.IsPiece k.kind
  bad : Literal.HasBadEscape wide false line → ∃ k, last = [k] ∧ k.kind = .errorEscape
  unclosed : ¬ Literal.HasBadEscape wide false line → ¬ Literal.Closed false line →
    ∃ k, last = [k] ∧ k.kind = .errorString
  closed : ¬ Literal.HasBadEscape wide false line → Literal.Closed false line →
    last ≠ [] ∧ ∀ k ∈ last, k.kind = .string

theorem exists_hostsLiterals {l : Language} {wide : Bool} (hl : l.literals? = some wide) :
    l.machine.Clears ∧ ∃ stands, l.machine.HostsLiterals wide l.IsPiece stands := by
  cases l with
  | decoHack =>
    cases hl
    exact ⟨Braces.clears .patch, _, Braces.hostsLiterals .patch _⟩
  | rookScript | wadScript | doomMake =>
    cases hl
    exact ⟨Braces.clears .script, _, Braces.hostsLiterals .script _⟩
  | wadMerge =>
    cases hl
    exact ⟨MergeScript.clears, _, MergeScript.hostsLiterals ⟨rfl, .inl rfl⟩ ⟨rfl, .inr rfl⟩⟩
  | deuTex | defSwAni => cases hl

end Language

theorem Literal.extent_append_after (t : Text) :
    Literal.extent false (Text.firstLine t) ++ Literal.after false t = t := by
  have hprefix : Literal.extent false (Text.firstLine t) <+: t :=
    (List.take_prefix _ _).trans (List.takeWhile_prefix _)
  exact List.prefix_iff_eq_append.1 hprefix

theorem tokensOf_singleton_of_not_linked {r : Run} (h : r.kind.linkForm? = none) (offset : Nat) :
    tokensOf offset [r] = [⟨r.kind, r.text, 0, offset, false⟩] := by
  simp [tokensOf, Run.pieces, h, layOut]

theorem Language.readsLiteral_of_judged {l : Language} {wide : Bool} {line : Text} {pieces : List Run}
    {last : Run} (hpieces : ∀ r ∈ pieces, l.IsPiece r.kind) (hlast : Literal.body.Judged wide line last.kind)
    (hne : last.text ≠ []) (offset bytes : Nat) :
    l.ReadsLiteral wide line (tokensOf offset pieces)
      ((tokensOf (offset + bytes) [last]).map (·.behind bytes)) := by
  have hspoils := Literal.spoils_body wide line
  constructor
  · intro k hk
    obtain ⟨r, hr, hkind⟩ := exists_run_of_mem_tokensOf hk
    rw [hkind]
    exact hpieces r hr
  · intro hbad
    have hkind := hlast.bad (hspoils.2 hbad)
    rw [tokensOf_singleton_of_not_linked (by rw [hkind]; rfl)]
    exact ⟨_, rfl, hkind⟩
  · intro hbad hclosed
    have hkind := hlast.unclosed (mt hspoils.1 hbad) hclosed
    rw [tokensOf_singleton_of_not_linked (by rw [hkind]; rfl)]
    exact ⟨_, rfl, hkind⟩
  · intro hbad hclosed
    have hfills := fills_tokensOf_singleton (offset + bytes) last.kind hne
    rw [← hlast.closed (mt hspoils.1 hbad) hclosed]
    constructor
    · rw [Ne, List.map_eq_nil_iff]
      exact mt hfills.covers.empty.1 hne
    · intro k hk
      obtain ⟨k', hk', rfl⟩ := List.mem_map.1 hk
      exact hfills.kind_eq k' hk'

/-- A text falls into what stands before a literal, the literal, and what comes after it; the literal is
that which starts with the quote before `rest`. The tokens do so too, and those after the literal are those
of the text there, lexed from the neutral state. -/
def Language.Delimits (l : Language) (wide : Bool) (state : LineState) (t before rest : Text) (offset : Nat) :
    Prop :=
  let line := Text.firstLine rest
  let literal := '"' :: Literal.extent false line
  let after := Literal.after false rest
  t = before ++ literal ++ after ∧
  ∃ first pieces last,
    Covers offset before first ∧
    Covers (offset + Text.width before) literal (pieces ++ last) ∧
    l.ReadsLiteral wide line pieces last ∧
    l.tokenize t state offset =
      let width := Text.width (before ++ literal)
      let next := l.tokenize after .neutral (offset + width)
      ⟨first ++ (pieces ++ last).map (·.behind (Text.width before)) ++ next.tokens.map (·.behind width),
        next.next⟩

/-- At each place between tokens at which a quote follows, a literal starts, which reaches through the first
quote that no backslash takes along, or over the rest of its line. It is bad if a digit is missing after
one of its escapes, open if it has no closing quote, and a string otherwise, in merge scripts with
arguments; in any case, what follows it is lexed from the neutral state. -/
theorem literals_delimited {l : Language} {wide : Bool} (hl : l.literals? = some wide) {state : LineState}
    {t rest : Text} {x : Position l.MachineState} (hx : l.machine.Reaches (.start l.machine state t) x)
    (hneutral : x.state = l.machine.enter .neutral) (hrest : x.rest = '"' :: rest) (offset : Nat) :
    l.Delimits wide state t (Run.textOf x.done) rest offset := by
  obtain ⟨hclears, stands, hm⟩ := Language.exists_hostsLiterals hl
  have hagrees := Machine.agrees_of_reaches l.machine_settles hclears hx
  obtain ⟨_, ⟨pieces, last, hpieces, hlast, rfl⟩, hscan⟩ := hm.endsOpen_of_agrees hagrees hneutral hrest
  have htext : t = Run.textOf x.done ++ ('"' :: Literal.extent false (Text.firstLine rest)) ++
      Literal.after false rest := by
    have h := hagrees.text
    rw [hrest, hagrees.clear hneutral, ← Literal.extent_append_after rest] at h
    rw [← h]
    simp [Literal.extent_append_after]
  have hruns : l.scan state t =
      (x.done ++ (pieces ++ [last]) ++ (l.scan .neutral (Literal.after false rest)).1,
        (l.scan .neutral (Literal.after false rest)).2) := by
    rw [Language.scan_eq_machine_scan, Language.scan_eq_machine_scan, hscan]
    simp [Literal.takes]
  have hne : ∀ r ∈ x.done ++ (pieces ++ [last]), r.text ≠ [] := by
    intro r hr
    have hmem : r ∈ (l.scan state t).1 := by rw [hruns]; exact List.mem_append_left _ hr
    exact Language.ne_nil_of_mem_scan hmem
  have hliteral : Run.textOf (pieces ++ [last]) = '"' :: Literal.extent false (Text.firstLine rest) := by
    have h := l.textOf_scan state t
    rw [hruns, Run.textOf_append, Run.textOf_append, l.textOf_scan, htext] at h
    exact List.append_cancel_left (List.append_cancel_right h)
  refine ⟨htext, tokensOf offset x.done, tokensOf (offset + Text.width (Run.textOf x.done)) pieces, _, ?_, ?_,
    Language.readsLiteral_of_judged hpieces hlast ?_ _ (Text.width (Run.textOf pieces)), ?_⟩
  · exact covers_tokensOf offset x.done fun r hr => hne r (List.mem_append_left _ hr)
  · rw [← tokensOf_append, ← hliteral]
    exact covers_tokensOf _ _ fun r hr => hne r (List.mem_append_right _ hr)
  · exact hne last (by simp)
  · rw [← tokensOf_append, l.tokenize_of_scan _ hruns offset, tokensOf_append, Run.textOf_append, hliteral]

/-- After an argument of the script and a blank, a literal with an argument in it, whose closing quote comes
where two digits should. -/
theorem literals_delimited_cut_escape :
    let rest := "a$2\\x\" b".toList
    let t := ['$', '1', ' ', '"'] ++ rest
    let x : Position MergeScript.Scan :=
      ⟨[⟨.argument, ['$', '1']⟩, ⟨.whitespace, [' ']⟩], .neutral, [], '"' :: rest,
        [⟨12, false⟩, ⟨11, false⟩, ⟨10, true⟩, ⟨10, false⟩, ⟨9, true⟩]⟩
    Language.wadMerge.literals? = some true ∧
      MergeScript.machine.Reaches (.start MergeScript.machine .neutral t) x ∧
      x.state = MergeScript.machine.enter .neutral ∧ x.rest = '"' :: rest ∧
      Literal.extent false rest = "a$2\\x\"".toList ∧ Literal.HasBadEscape true false rest ∧
      Language.wadMerge.Delimits true .neutral t (Run.textOf x.done) rest 5 := by
  intro rest t x
  have hx : MergeScript.machine.Reaches (.start MergeScript.machine .neutral t) x := by
    unfold Machine.Reaches
    exact .head rfl (.head rfl (.head rfl (.head rfl (.head rfl .refl))))
  have hbad : Literal.HasBadEscape true false rest :=
    ⟨4, 'x', 2, by decide, by decide, by decide, '"', by decide, by decide⟩
  exact ⟨rfl, hx, rfl, rfl, by decide, hbad, literals_delimited (l := .wadMerge) rfl hx rfl rfl 5⟩

end DoomLex
