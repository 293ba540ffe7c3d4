/-
Lexing restarts behind plain tokens, those of kinds that are not searched for links. A machine restarts if it
stands between tokens, with nothing remembered, wherever a run of such a kind ends: at a character that closes
it, before one that cuts it off, or with its line. Then what follows the run is scanned as a text of its own,
and this carries over to the tokens, for a plain run is one token. The token of a line break is the exception:
no run of the machine gives it, and the line after it need not start in the neutral state.
-/
import DoomLex.Proofs.Lexing.Literals
import DoomLex.Proofs.Lexing.Pushback
import DoomLex.Proofs.Lexing.Resumption

namespace DoomLex

/-- Kinds that are not searched for links. -/
def Kind.Plain (k : Kind) : Prop := k.linkForm? = none

/-- An answer that ends a run, if it ends one, ends it between tokens, in the given state; no run ends before a
character that starts another one then and there. -/
def Answer.EndsIn {σ : Type} (neutral : σ) : Answer σ → Prop
  | .close _ next | .cut next => next = neutral
  | .split _ => False
  | .take _ | .again _ => True

/-! ## Machines that restart -/

namespace Machine

variable {σ : Type} {m : Machine σ}

/-- What makes a machine restart behind plain runs: they end in the neutral state, which a line may also end
in. -/
structure Restarts (m : Machine σ) : Prop where
  settles : m.Settles
  neutral : m.leave (m.enter .neutral) = .neutral
  answer : ∀ s c, (m.answer s c).EndsIn (m.enter .neutral)
  last : ∀ {s run}, (m.lastLabel s run).Plain → m.leave s = .neutral

/-- What follows a plain run among the runs is what a scan of its text from the neutral state gives, which also
leaves the same state. -/
def RestartsIn (m : Machine σ) (runs : List Run) (state : LineState) : Prop :=
  ∀ first r later, runs = first ++ r :: later → r.kind.Plain → r.text ≠ ['\n'] →
    m.scan .neutral (Run.textOf later) = (later, state)

section RestartsIn

variable {runs : List Run} {state : LineState}

theorem restartsIn_nil : m.RestartsIn [] state := by
  intro first r later h
  exact absurd h.symm (List.append_ne_nil_of_right_ne_nil _ (List.cons_ne_nil _ _))

theorem RestartsIn.cons {r : Run} (h : m.RestartsIn runs state)
    (hr : r.kind.Plain → r.text ≠ ['\n'] → m.scan .neutral (Run.textOf runs) = (runs, state)) :
    m.RestartsIn (r :: runs) state := by
  intro first r' later hsplit
  rcases List.cons_eq_append_iff.1 hsplit with ⟨rfl, hsplit⟩ | ⟨first, rfl, rfl⟩
  · obtain ⟨rfl, rfl⟩ := List.cons.inj hsplit
    exact hr
  · exact h first r' later rfl

theorem RestartsIn.ofPending_append {kind : Text → Kind} (h : m.RestartsIn runs state) (pending : Text)
    (hr : ∀ run, (kind run).Plain → m.scan .neutral (Run.textOf runs) = (runs, state)) :
    m.RestartsIn (Run.ofPending kind pending ++ runs) state := by
  unfold Run.ofPending
  split
  · exact h
  · exact h.cons fun hplain _ => hr _ hplain

end RestartsIn

namespace Restarts

variable {s : σ} {c : Char} {t : Text}

theorem restartsIn_of_consumes (hm : m.Restarts) (hc : c ≠ '\n') (h : (m.answer s c).rewinds = false)
    (ih : ∀ s pending, m.RestartsIn (m.scanFrom s pending t).1 (m.scanFrom s pending t).2) (pending : Text) :
    m.RestartsIn (m.scanFrom s pending (c :: t)).1 (m.scanFrom s pending (c :: t)).2 := by
  have hends := hm.answer s c
  rw [scanFrom_cons m hc]
  cases hanswer : m.answer s c with
  | take next =>
    rw [react_of_take hanswer]
    exact ih _ _
  | close kind next =>
    rw [hanswer] at hends
    obtain rfl : next = m.enter .neutral := hends
    rw [react_of_close hanswer]
    refine (ih _ []).cons fun _ _ => ?_
    rw [textOf_scanFrom]
    rfl
  | split next =>
    rw [hanswer] at hends
    exact hends.elim
  | cut next | again next =>
    rw [hanswer] at h
    cases h

theorem restartsIn_cons (hm : m.Restarts) (hc : c ≠ '\n')
    (ih : ∀ s pending, m.RestartsIn (m.scanFrom s pending t).1 (m.scanFrom s pending t).2) (pending : Text) :
    m.RestartsIn (m.scanFrom s pending (c :: t)).1 (m.scanFrom s pending (c :: t)).2 := by
  cases hrewinds : (m.answer s c).rewinds with
  | false => exact hm.restartsIn_of_consumes hc hrewinds ih pending
  | true =>
    have hends := hm.answer s c
    have hconsumes := hm.settles s c hc hrewinds
    rcases Answer.eq_of_rewinds hrewinds with ⟨next, hanswer⟩ | ⟨next, hanswer⟩
    · -- the run before the character ends, and the scan goes on as if the text started there
      rw [hanswer] at hends
      obtain rfl : next = m.enter .neutral := hends
      rw [hanswer, Answer.next_cut] at hconsumes
      have hscan : m.scanFrom s pending (c :: t) =
          (Run.ofPending (m.label s) pending ++ (m.scan .neutral (c :: t)).1, (m.scan .neutral (c :: t)).2) := by
        simp only [scan, scanFrom_cons m hc, react_of_cut hanswer hconsumes, List.append_assoc]
      have hnext : m.RestartsIn (m.scan .neutral (c :: t)).1 (m.scan .neutral (c :: t)).2 :=
        hm.restartsIn_of_consumes hc hconsumes ih []
      rw [hscan]
      refine hnext.ofPending_append pending fun _ _ => ?_
      rw [textOf_scan]
    · rw [hanswer, Answer.next_again] at hconsumes
      have hscan : m.scanFrom s pending (c :: t) = m.scanFrom next pending (c :: t) := by
        rw [scanFrom_cons m hc, scanFrom_cons m hc, react_of_again hanswer hconsumes]
      rw [hscan]
      exact hm.restartsIn_of_consumes hc hconsumes ih pending

theorem restartsIn_scanFrom (hm : m.Restarts) (s : σ) (pending t : Text) :
    m.RestartsIn (m.scanFrom s pending t).1 (m.scanFrom s pending t).2 := by
  induction t generalizing s pending with
  | nil =>
    have hnil : m.RestartsIn [] (m.leave s) := restartsIn_nil
    have hlast : m.RestartsIn (Run.ofPending (m.lastLabel s) pending ++ []) (m.leave s) := by
      refine hnil.ofPending_append pending fun run hplain => ?_
      rw [hm.last hplain]
      exact Prod.ext rfl hm.neutral
    rwa [List.append_nil] at hlast
  | cons c t ih =>
    by_cases hc : c = '\n'
    · subst hc
      have hnext : m.RestartsIn (m.scan (m.leave s) t).1 (m.scan (m.leave s) t).2 := ih _ _
      have hbreak : m.RestartsIn (Run.newline :: (m.scan (m.leave s) t).1) (m.scan (m.leave s) t).2 :=
        hnext.cons fun _ hne => absurd rfl hne
      rw [scanFrom_newline]
      refine hbreak.ofPending_append pending fun run hplain => ?_
      -- the run ends with its line, which leaves the neutral state just as an empty line does
      have htext : Run.textOf (Run.newline :: (m.scan .neutral t).1) = '\n' :: t := by
        rw [Run.textOf_cons, textOf_scan]
        rfl
      rw [hm.last hplain, htext, scan, scanFrom_newline, hm.neutral]
      rfl
    · exact hm.restartsIn_cons hc ih pending

end Restarts

end Machine

/-! ## The machines -/

namespace Braces

theorem answer_endsIn (d : Dialect) (s : Scan) (c : Char) : (answer d s c).EndsIn .neutral := by
  cases s with
  | neutral =>
    simp only [answer, start]
    split_ifs <;> constructor
  | block b =>
    simp only [answer]
    cases b.step c <;> constructor
  | literal q =>
    simp only [answer]
    cases q.step d.wideEscapes c <;> constructor
  | numeral n =>
    simp only [answer]
    cases n.step d c <;> constructor
  | lineComment => constructor
  | blank | directive | directiveCarried | backquote | slash | punctuation | word =>
    simp only [answer]
    split_ifs <;> constructor

theorem restarts (d : Dialect) : (machine d).Restarts where
  settles := settles d
  neutral := rfl
  answer := answer_endsIn d
  last := by
    intro s run h
    -- the states that a line hands on to the next one label their runs with kinds that may hold links
    cases s with
    | directive | directiveCarried | backquote => cases h
    | block b => cases b <;> cases h
    | neutral | blank | slash | lineComment | literal q | punctuation | numeral n | word => rfl

end Braces

namespace SwitchList

theorem restarts : machine.Restarts where
  settles := settles
  neutral := rfl
  answer := by
    intro s c
    show (answer s c).EndsIn .neutral
    cases s with
    | comment => constructor
    | neutral | blank | decimal | word =>
      simp only [answer]
      split_ifs <;> constructor
  last := fun _ => rfl

end SwitchList

theorem Language.restarts {l : Language} (h : l.dialect?.isSome = true ∨ l = .defSwAni) :
    l.machine.Restarts := by
  cases l with
  | decoHack => exact Braces.restarts .patch
  | rookScript | wadScript | doomMake => exact Braces.restarts .script
  | defSwAni => exact SwitchList.restarts
  | wadMerge | deuTex => rcases h with h | h <;> cases h

/-! ## The tokens -/

theorem tokensOf_cons (offset : Nat) (r : Run) (runs : List Run) :
    tokensOf offset (r :: runs) =
      tokensOf offset [r] ++
        (tokensOf (offset + Text.width r.text) runs).map (·.behind (Text.width r.text)) := by
  have h := tokensOf_append offset [r] runs
  rwa [List.singleton_append, Run.textOf_cons, Run.textOf_nil, List.append_nil] at h

/-- A plain token is the one token of a run, and the tokens after it are those of the runs after that. -/
theorem exists_run_of_tokensOf_eq {offset : Nat} {runs : List Run} {first later : List Token} {k : Token}
    (h : tokensOf offset runs = first ++ k :: later) (hk : k.kind.Plain) :
    ∃ before r after, runs = before ++ r :: after ∧ r.kind = k.kind ∧ r.text = k.text ∧
      Text.width (Run.textOf (before ++ [r])) = k.stop ∧
      later = (tokensOf (offset + k.stop) after).map (·.behind k.stop) := by
  induction runs generalizing offset first k later with
  | nil => exact absurd h.symm (List.append_ne_nil_of_right_ne_nil _ (List.cons_ne_nil _ _))
  | cons r runs ih =>
    -- the token is one of the runs after the first, or of the first
    have hrest : ∀ front,
        (tokensOf (offset + Text.width r.text) runs).map (·.behind (Text.width r.text)) = front ++ k :: later →
        ∃ before r' after, r :: runs = before ++ r' :: after ∧ r'.kind = k.kind ∧ r'.text = k.text ∧
          Text.width (Run.textOf (before ++ [r'])) = k.stop ∧
          later = (tokensOf (offset + k.stop) after).map (·.behind k.stop) := by
      intro front hmap
      obtain ⟨front', tail, hsplit, -, htail⟩ := List.map_eq_append_iff.1 hmap
      obtain ⟨k', later', rfl, rfl, rfl⟩ := List.map_eq_cons_iff.1 htail
      obtain ⟨before, r', after, rfl, hkind, htext, hstop, rfl⟩ := ih hsplit hk
      have hbehind : (k'.behind (Text.width r.text)).stop = Text.width r.text + k'.stop := by
        simp only [Token.stop, Token.behind, Token.width]
        omega
      refine ⟨r :: before, r', after, rfl, hkind, htext, ?_, ?_⟩
      · rw [List.cons_append, Run.textOf_cons, Text.width_append, hstop, hbehind]
      · rw [hbehind, List.map_map, Nat.add_assoc]
        apply List.map_congr_left
        intro k'' _
        exact k''.behind_behind _ _
    rw [tokensOf_cons] at h
    rcases List.append_eq_append_iff.1 h with ⟨front, -, hmap⟩ | ⟨front, hfront, hmap⟩
    · exact hrest front hmap
    cases front with
    | nil => exact hrest [] hmap.symm
    | cons k' front =>
      obtain ⟨rfl, rfl⟩ := List.cons.inj hmap
      have hkind : k.kind = r.kind := by
        obtain ⟨r', hr', hkind⟩ := exists_run_of_mem_tokensOf (hfront ▸ List.mem_append_cons_self)
        rw [hkind, List.mem_singleton.1 hr']
      have hplain : r.kind.linkForm? = none := hkind ▸ hk
      rw [tokensOf_singleton_of_not_linked hplain] at hfront
      obtain ⟨rfl, hcons⟩ | ⟨_, -, hcons⟩ := List.cons_eq_append_iff.1 hfront
      · obtain ⟨rfl, rfl⟩ := List.cons.inj hcons
        refine ⟨[], r, runs, rfl, rfl, rfl, ?_, ?_⟩
        · simp [Token.stop, Token.width]
        · simp [Token.stop, Token.width]
      · exact absurd hcons.symm (List.append_ne_nil_of_right_ne_nil _ (List.cons_ne_nil _ _))

/-- Behind a token of a kind that is not searched for links, that of a line break apart, lexing restarts: the
tokens after it are those of the text after it, lexed by itself from the neutral state and moved behind the
token, and the state that is left is the same. So whatever comes before the token, and in what state the text
starts, does not matter for what follows. -/
theorem lexing_restarts {l : Language} (h : l.dialect?.isSome = true ∨ l = .defSwAni) (t : Text)
    (state : LineState) (offset : Nat) {first later : List Token} {k : Token}
    (hsplit : (l.tokenize t state offset).tokens = first ++ k :: later) (hk : k.kind.Plain)
    (hne : k.text ≠ ['\n']) :
    ∃ before after, Text.splitAt? t k.stop = some (before, after) ∧
      let fresh := l.tokenize after .neutral (offset + k.stop)
      later = fresh.tokens.map (·.behind k.stop) ∧ (l.tokenize t state offset).next = fresh.next := by
  have htokens : tokensOf offset (l.scan state t).1 = first ++ k :: later := hsplit
  obtain ⟨before, r, after, hruns, hkind, htext, hstop, hlater⟩ := exists_run_of_tokensOf_eq htokens hk
  have hcut : t = Run.textOf (before ++ [r]) ++ Run.textOf after := by
    rw [← Run.textOf_append, List.append_assoc, List.singleton_append, ← hruns, l.textOf_scan]
  have hrestart : l.scan .neutral (Run.textOf after) = (after, (l.scan state t).2) := by
    rw [l.scan_eq_machine_scan state t] at hruns ⊢
    rw [l.scan_eq_machine_scan]
    exact (l.restarts h).restartsIn_scanFrom _ _ t before r after hruns (hkind ▸ hk) (htext ▸ hne)
  have hfresh : l.tokenize (Run.textOf after) .neutral (offset + k.stop) =
      ⟨tokensOf (offset + k.stop) after, (l.scan state t).2⟩ := by
    simp only [Language.tokenize, hrestart]
  refine ⟨Run.textOf (before ++ [r]), Run.textOf after, ?_, ?_⟩
  · rw [hcut, ← hstop]
    exact Text.splitAt?_append _ _
  · rw [hfresh]
    exact ⟨hlater, rfl⟩

/-- A number behind the end of a comment: what comes after it is lexed as if nothing came before. -/
theorem lexing_restarts_number :
    let t := "*/0x1+y//".toList
    let later : List Token := [⟨.operator, ['+'], 5, 45, false⟩, ⟨.identifier, ['y'], 6, 46, false⟩,
      ⟨.lineComment, "//".toList, 7, 47, false⟩]
    let k : Token := ⟨.hex, "0x1".toList, 2, 42, false⟩
    let lexed := Language.decoHack.tokenize t .blockComment 40
    (Language.decoHack.dialect?.isSome = true ∨ Language.decoHack = .defSwAni) ∧
      lexed.tokens = [⟨.blockComment, "*/".toList, 0, 40, false⟩] ++ k :: later ∧
      k.kind.Plain ∧ k.text ≠ ['\n'] ∧
      ∃ before after, Text.splitAt? t k.stop = some (before, after) ∧
        let fresh := Language.decoHack.tokenize after .neutral (40 + k.stop)
        later = fresh.tokens.map (·.behind k.stop) ∧ lexed.next = fresh.next := by
  intro t later k lexed
  have hsplit : lexed.tokens = [⟨.blockComment, "*/".toList, 0, 40, false⟩] ++ k :: later := by decide +kernel
  exact ⟨.inl rfl, hsplit, rfl, by decide, lexing_restarts (.inl rfl) t .blockComment 40 hsplit rfl (by decide)⟩

end DoomLex
