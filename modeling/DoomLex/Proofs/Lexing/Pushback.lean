/-
Pushback is bounded: a machine that asks to see a character again consumes it the next time, in every
state and for every character. So the loop that shows a machine the character at its place until the
machine consumes it ends on every text, after at most two showings of each character, and finds what
`Machine.scan` finds, which shows a character twice at most from the start.
-/
import DoomLex.Proofs.Lexing.Runs
import Mathlib.Tactic.SplitIfs

namespace DoomLex

/-! ## Answers -/

namespace Answer

variable {σ : Type} (s : σ) (kind : Kind)

@[simp] theorem rewinds_take : (take s).rewinds = false := rfl
@[simp] theorem rewinds_close : (close kind s).rewinds = false := rfl
@[simp] theorem rewinds_split : (split s).rewinds = false := rfl
@[simp] theorem rewinds_cut : (cut s).rewinds = true := rfl
@[simp] theorem rewinds_again : (again s).rewinds = true := rfl
@[simp] theorem next_cut : (cut s).next = s := rfl
@[simp] theorem next_again : (again s).next = s := rfl

/-- An answer that asks to see the character again ends the pending run before it or leaves it as it
is. -/
theorem eq_of_rewinds {a : Answer σ} (h : a.rewinds = true) : (∃ s, a = cut s) ∨ ∃ s, a = again s := by
  cases a with
  | take s => cases h
  | close kind s => cases h
  | split s => cases h
  | cut s => exact Or.inl ⟨s, rfl⟩
  | again s => exact Or.inr ⟨s, rfl⟩

end Answer

/-! ## The loop -/

/-- One showing of a character to a machine. -/
structure Call where
  /-- The number of characters not yet consumed, this one counted. -/
  left : Nat
  /-- Whether the machine asks to see the character again. -/
  rewinds : Bool
deriving DecidableEq, Repr

/-- Where the loop stands in a text. -/
structure Position (σ : Type) where
  /-- The runs that have ended. -/
  done : List Run
  state : σ
  /-- The pending run, the last character first. -/
  pending : Text
  /-- The characters not yet consumed. -/
  rest : Text
  /-- The showings so far. -/
  calls : List Call

/-- The place before a text that starts in a line state. -/
def Position.start {σ : Type} (m : Machine σ) (state : LineState) (t : Text) : Position σ :=
  ⟨[], m.enter state, [], t, []⟩

/-- The runs and the line state that the machine leaves if the text ends at the place. -/
def Position.finish {σ : Type} (m : Machine σ) (x : Position σ) : List Run × LineState :=
  (x.done ++ Run.ofPending (m.lastLabel x.state) x.pending, m.leave x.state)

namespace Machine

variable {σ : Type} (m : Machine σ)

/-- One round of the loop: a line break is passed, any other character is shown to the machine, which
may leave it where it is. At the end of the text there is no round. -/
def round (x : Position σ) : Option (Position σ) :=
  match x.rest with
  | [] => none
  | c :: t =>
    if c = '\n' then
      some ⟨(x.finish m).1 ++ [Run.newline], m.enter (x.finish m).2, [], t, x.calls⟩
    else
      let calls := x.calls ++ [⟨t.length + 1, (m.answer x.state c).rewinds⟩]
      match m.answer x.state c with
      | .take s => some ⟨x.done, s, c :: x.pending, t, calls⟩
      | .close kind s => some ⟨x.done ++ [⟨kind, (c :: x.pending).reverse⟩], s, [], t, calls⟩
      | .split s => some ⟨x.done ++ Run.ofPending (m.label x.state) x.pending, s, [c], t, calls⟩
      | .cut s => some ⟨x.done ++ Run.ofPending (m.label x.state) x.pending, s, [], c :: t, calls⟩
      | .again s => some ⟨x.done, s, x.pending, c :: t, calls⟩

/-- Round after round from the first place, the loop ends at the second. From a place where the rounds
never end it ends nowhere. -/
inductive Ends : Position σ → Position σ → Prop where
  | here {x : Position σ} (h : m.round x = none) : Ends x x
  | next {x y z : Position σ} (h : m.round x = some y) (hz : Ends y z) : Ends x z

/-- A machine settles if no character makes it ask twice in a row. -/
def Settles : Prop :=
  ∀ (s : σ) (c : Char), c ≠ '\n' → (m.answer s c).rewinds = true →
    (m.answer (m.answer s c).next c).rewinds = false

theorem round_of_rest_nil {x : Position σ} (h : x.rest = []) : m.round x = none := by
  simp [round, h]

/-- The loop ends at one place at most. -/
theorem Ends.unique {m : Machine σ} {x y z : Position σ} (hy : m.Ends x y) (hz : m.Ends x z) : y = z := by
  induction hy with
  | here h =>
    cases hz with
    | here => rfl
    | next h' => rw [h] at h'; cases h'
  | next h _ ih =>
    cases hz with
    | here h' => rw [h] at h'; cases h'
    | next h' hz =>
      rw [h] at h'
      obtain rfl := Option.some.inj h'
      exact ih hz

/-! ## One character -/

theorem round_newline (done : List Run) (s : σ) (pending t : Text) (calls : List Call) :
    m.round ⟨done, s, pending, '\n' :: t, calls⟩ =
      some ⟨done ++ Run.ofPending (m.lastLabel s) pending ++ [Run.newline], m.enter (m.leave s), [],
        t, calls⟩ := by
  simp [round, Position.finish]

theorem react_of_consumes {m : Machine σ} {s : σ} {c : Char} (h : (m.answer s c).rewinds = false)
    (pending : Text) : m.react s pending c = m.absorb s pending c := by
  unfold react
  cases ha : m.answer s c with
  | cut s' => rw [ha] at h; cases h
  | again s' => rw [ha] at h; cases h
  | take s' | close kind s' | split s' => rfl

/-- A character that the machine consumes takes one round. -/
theorem round_of_consumes {s : σ} {c : Char} (hc : c ≠ '\n') (h : (m.answer s c).rewinds = false)
    (done : List Run) (pending t : Text) (calls : List Call) :
    m.round ⟨done, s, pending, c :: t, calls⟩ =
      some ⟨done ++ (m.absorb s pending c).done, (m.absorb s pending c).next, (m.absorb s pending c).pending,
        t, calls ++ [⟨t.length + 1, false⟩]⟩ := by
  unfold round absorb
  simp only [if_neg hc, h]
  cases ha : m.answer s c with
  | take s' => simp
  | close kind s' => rfl
  | split s' => rfl
  | cut s' => rw [ha] at h; cases h
  | again s' => rw [ha] at h; cases h

/-- A character before which the pending run ends is shown again with none pending. -/
theorem round_of_cut {s s' : σ} {c : Char} (hc : c ≠ '\n') (h : m.answer s c = .cut s') (done : List Run)
    (pending t : Text) (calls : List Call) :
    m.round ⟨done, s, pending, c :: t, calls⟩ =
      some ⟨done ++ Run.ofPending (m.label s) pending, s', [], c :: t, calls ++ [⟨t.length + 1, true⟩]⟩ := by
  simp [round, hc, h]

/-- A character that is only to be shown again is shown with the same run pending. -/
theorem round_of_again {s s' : σ} {c : Char} (hc : c ≠ '\n') (h : m.answer s c = .again s')
    (done : List Run) (pending t : Text) (calls : List Call) :
    m.round ⟨done, s, pending, c :: t, calls⟩ =
      some ⟨done, s', pending, c :: t, calls ++ [⟨t.length + 1, true⟩]⟩ := by
  simp [round, hc, h]

theorem react_of_cut {m : Machine σ} {s s' : σ} {c : Char} (h : m.answer s c = .cut s')
    (hc : (m.answer s' c).rewinds = false) (pending : Text) :
    m.react s pending c =
      ⟨Run.ofPending (m.label s) pending ++ (m.react s' [] c).done, (m.react s' [] c).next,
        (m.react s' [] c).pending⟩ := by
  rw [react_of_consumes hc]
  simp [react, h]

theorem react_of_again {m : Machine σ} {s s' : σ} {c : Char} (h : m.answer s c = .again s')
    (hc : (m.answer s' c).rewinds = false) (pending : Text) :
    m.react s pending c = m.react s' pending c := by
  rw [react_of_consumes hc]
  simp [react, h]

/-- Two showings at most bring the loop past a character, and then it stands where `react` says. -/
theorem ends_of_ends_react {m : Machine σ} (hm : m.Settles) {c : Char} (hc : c ≠ '\n') (done : List Run)
    (s : σ) (pending t : Text) (calls : List Call) :
    ∃ new : List Call, (∀ call ∈ new, call.left = t.length + 1) ∧ new.length ≤ 2 ∧
      new.countP (·.rewinds) ≤ 1 ∧
      ∀ {x : Position σ},
        m.Ends ⟨done ++ (m.react s pending c).done, (m.react s pending c).next,
          (m.react s pending c).pending, t, calls ++ new⟩ x →
        m.Ends ⟨done, s, pending, c :: t, calls⟩ x := by
  cases hr : (m.answer s c).rewinds with
  | false =>
    refine ⟨[⟨t.length + 1, false⟩], by simp, by simp, by simp, ?_⟩
    intro x hx
    rw [react_of_consumes hr] at hx
    exact .next (m.round_of_consumes hc hr done pending t calls) hx
  | true =>
    have hnext := hm s c hc hr
    refine ⟨[⟨t.length + 1, true⟩, ⟨t.length + 1, false⟩], by simp, by simp, by simp, ?_⟩
    intro x hx
    rcases Answer.eq_of_rewinds hr with ⟨s', ha⟩ | ⟨s', ha⟩
    · rw [ha, Answer.next_cut] at hnext
      rw [react_of_cut ha hnext, react_of_consumes hnext] at hx
      refine .next (m.round_of_cut hc ha done pending t calls) (.next (m.round_of_consumes hc hnext _ _ _ _) ?_)
      simpa using hx
    · rw [ha, Answer.next_again] at hnext
      rw [react_of_again ha hnext, react_of_consumes hnext] at hx
      refine .next (m.round_of_again hc ha done pending t calls)
        (.next (m.round_of_consumes hc hnext _ _ _ _) ?_)
      simpa using hx

end Machine

/-! ## A text -/

/-- Showings in a text of `n` characters: at most two of each character, and at most as many requests
to see one again as there are characters. -/
structure CallsWithin (n : Nat) (calls : List Call) : Prop where
  left_le : ∀ call ∈ calls, call.left ≤ n
  twice : ∀ i, calls.countP (·.left == i) ≤ 2
  length_le : calls.length ≤ 2 * n
  rewinds_le : calls.countP (·.rewinds) ≤ n

namespace CallsWithin

theorem nil : CallsWithin 0 [] := ⟨by simp, by simp, by simp, by simp⟩

/-- Showings of one more character in front. -/
theorem append {n : Nat} {calls : List Call} (h : CallsWithin n calls) (new : List Call)
    (hleft : ∀ call ∈ new, call.left = n + 1) (hlen : new.length ≤ 2) (hrew : new.countP (·.rewinds) ≤ 1) :
    CallsWithin (n + 1) (new ++ calls) := by
  refine ⟨?_, ?_, ?_, ?_⟩
  · intro call hcall
    rcases List.mem_append.1 hcall with hcall | hcall
    · have := hleft call hcall
      omega
    · have := h.left_le call hcall
      omega
  · intro i
    rw [List.countP_append]
    -- a showing of the new character is none of the old ones, which stand further on in the text
    by_cases hi : i = n + 1
    · have hold : calls.countP (·.left == i) = 0 := by
        rw [List.countP_eq_zero]
        intro call hcall
        have := h.left_le call hcall
        simp; omega
      have hnew : new.countP (·.left == i) ≤ new.length := List.countP_le_length
      omega
    · have hnew : new.countP (·.left == i) = 0 := by
        rw [List.countP_eq_zero]
        intro call hcall
        have := hleft call hcall
        simp; omega
      have := h.twice i
      omega
  · have := h.length_le
    rw [List.length_append]; omega
  · have := h.rewinds_le
    rw [List.countP_append]; omega

end CallsWithin

namespace Machine

variable {σ : Type} {m : Machine σ}

/-- The loop of a machine that settles ends from every place, within the bounds on showings, and
finds what the scan finds. -/
theorem exists_ends (hm : m.Settles) (done : List Run) (s : σ) (pending t : Text) (calls : List Call) :
    ∃ x new, m.Ends ⟨done, s, pending, t, calls⟩ x ∧ x.rest = [] ∧
      x.finish m = (done ++ (m.scanFrom s pending t).1, (m.scanFrom s pending t).2) ∧
      x.calls = calls ++ new ∧ CallsWithin t.length new := by
  induction t generalizing done s pending calls with
  | nil => exact ⟨_, [], .here (m.round_of_rest_nil rfl), rfl, rfl, by simp, CallsWithin.nil⟩
  | cons c t ih =>
    by_cases hc : c = '\n'
    · -- a line break is passed without a showing
      subst hc
      obtain ⟨x, new, hx, hrest, hfin, hcalls, hnew⟩ :=
        ih (done ++ Run.ofPending (m.lastLabel s) pending ++ [Run.newline]) (m.enter (m.leave s)) [] calls
      refine ⟨x, new, .next (m.round_newline done s pending t calls) hx, hrest, ?_, hcalls, ?_⟩
      · rw [hfin, scanFrom_newline]
        simp [scan]
      · simpa using hnew.append [] (by simp) (by simp) (by simp)
    · obtain ⟨new₁, hleft, hlen, hrew, hends⟩ := ends_of_ends_react hm hc done s pending t calls
      obtain ⟨x, new₂, hx, hrest, hfin, hcalls, hnew⟩ :=
        ih (done ++ (m.react s pending c).done) (m.react s pending c).next (m.react s pending c).pending
          (calls ++ new₁)
      refine ⟨x, new₁ ++ new₂, hends hx, hrest, ?_, ?_, hnew.append new₁ hleft hlen hrew⟩
      · rw [hfin, scanFrom_cons m hc]
        simp
      · rw [hcalls, List.append_assoc]

end Machine

/-! ## The machines settle -/

/-- A literal asks to see a character again only where an escape lacks a digit, and is bad then. -/
theorem Literal.step_eq_again {wide : Bool} {q q' : Literal} {c : Char} (h : step wide q c = .again q') :
    (∃ missing, q = digits missing) ∧ q' = bad := by
  cases q with
  | body => simp only [step] at h; split_ifs at h
  | escape => simp only [step] at h; split at h <;> cases h
  | digits missing =>
    simp only [step] at h
    split_ifs at h
    obtain rfl := Outcome.again.inj h
    exact ⟨⟨missing, rfl⟩, rfl⟩
  | bad => simp only [step] at h; split_ifs at h
  | badEscape => cases h

namespace Braces

theorem rewinds_start (d : Dialect) (c : Char) : (start d c).rewinds = false := by
  unfold start
  split_ifs <;> rfl

theorem next_of_rewinds {d : Dialect} {s : Scan} {c : Char} (h : (answer d s c).rewinds = true) :
    (answer d s c).next = .neutral ∨ (answer d s c).next = .literal .bad := by
  cases s with
  | neutral => rw [answer, rewinds_start] at h; cases h
  | literal q =>
    right
    simp only [answer] at h ⊢
    cases hq : q.step d.wideEscapes c with
    | stay q' => rw [hq] at h; cases h
    | again q' => rw [(Literal.step_eq_again hq).2]; rfl
    | closed kind => rw [hq] at h; cases h
  | block b =>
    simp only [answer] at h
    cases hb : b.step c <;> (rw [hb] at h; cases h)
  | numeral n =>
    left
    simp only [answer] at h ⊢
    cases hn : n.step d c with
    | some n' => rw [hn] at h; cases h
    | none => rfl
  | lineComment => cases h
  | directive | directiveCarried | backquote => simp only [answer] at h; split_ifs at h <;> cases h
  | blank | slash | punctuation | word =>
    left
    simp only [answer] at h ⊢
    split_ifs at h ⊢ <;> simp_all

theorem rewinds_bad (d : Dialect) (c : Char) : (answer d (.literal .bad) c).rewinds = false := by
  simp only [answer]
  cases hq : Literal.step d.wideEscapes .bad c with
  | stay q' => rfl
  | again q' => obtain ⟨⟨_, h⟩, _⟩ := Literal.step_eq_again hq; cases h
  | closed kind => rfl

theorem settles (d : Dialect) : (machine d).Settles := by
  intro s c _ h
  show (answer d (answer d s c).next c).rewinds = false
  rcases next_of_rewinds h with hn | hn
  · rw [hn]; exact rewinds_start d c
  · rw [hn]; exact rewinds_bad d c

end Braces

namespace MergeScript

theorem rewinds_neutral (c : Char) : (answer .neutral c).rewinds = false := by
  simp only [answer]
  split_ifs <;> rfl

theorem rewinds_word {c : Char} (hc : Text.isBlank c = false) : (answer .word c).rewinds = false := by
  simp only [answer, hc, Bool.false_eq_true, if_false]
  split_ifs <;> rfl

theorem rewinds_literal {q : Literal} (hq : ∀ missing, q ≠ .digits missing) (c : Char) :
    (answer (.literal q) c).rewinds = false := by
  simp only [answer]
  split_ifs
  · rfl
  · cases hs : q.step true c with
    | stay q' => rfl
    | again q' =>
      obtain ⟨⟨missing, h⟩, _⟩ := Literal.step_eq_again hs
      exact absurd h (hq missing)
    | closed kind => rfl

/-- Where an argument ends, the scan goes on in a state that consumes the character after it. -/
theorem rewinds_resume (host : Host) (c : Char) : (answer (resume host c) c).rewinds = false := by
  cases host with
  | literal => exact rewinds_literal (by simp) c
  | word =>
    simp only [resume]
    split_ifs with hc
    · exact rewinds_neutral c
    · exact rewinds_word (by simpa using hc)

theorem next_of_rewinds {s : Scan} {c : Char} (h : (answer s c).rewinds = true) :
    (answer s c).next = .neutral ∨ (answer s c).next = .literal .bad ∨
      ∃ host, (answer s c).next = resume host c := by
  cases s with
  | neutral => rw [rewinds_neutral] at h; cases h
  | comment => cases h
  | blank | word | decimal =>
    left
    simp only [answer] at h ⊢
    split_ifs at h ⊢ <;> simp_all
  | literal q =>
    right; left
    simp only [answer] at h ⊢
    split_ifs at h ⊢ with hq
    · cases h
    · cases hs : q.step true c with
      | stay q' => rw [hs] at h; cases h
      | again q' => rw [(Literal.step_eq_again hs).2]; rfl
      | closed kind => rw [hs] at h; cases h
  | argument host a =>
    right; right
    simp only [answer] at h ⊢
    cases ha : a.step c with
    | some a' => rw [ha] at h; cases h
    | none => exact ⟨host, rfl⟩

theorem settles : machine.Settles := by
  intro s c _ h
  show (answer (answer s c).next c).rewinds = false
  rcases next_of_rewinds h with hn | hn | ⟨host, hn⟩
  · rw [hn]; exact rewinds_neutral c
  · rw [hn]; exact rewinds_literal (by simp) c
  · rw [hn]; exact rewinds_resume host c

end MergeScript

namespace TextureList

theorem next_of_rewinds {s : Scan} {c : Char} (h : (answer s c).rewinds = true) :
    (answer s c).next.place = .neutral := by
  obtain ⟨place, onPatch⟩ := s
  cases place with
  | comment => cases h
  | neutral => simp only [answer] at h; split_ifs at h <;> cases h
  | blank | marker | decimal | name | badNumber | badName =>
    simp only [answer] at h ⊢
    split_ifs at h ⊢ <;> simp_all

theorem rewinds_of_place_neutral {s : Scan} (hs : s.place = .neutral) (c : Char) :
    (answer s c).rewinds = false := by
  simp only [answer, hs]
  split_ifs <;> rfl

theorem settles : machine.Settles := by
  intro s c _ h
  exact rewinds_of_place_neutral (next_of_rewinds h) c

end TextureList

namespace SwitchList

theorem next_of_rewinds {s : Scan} {c : Char} (h : (answer s c).rewinds = true) :
    (answer s c).next = .neutral := by
  cases s with
  | comment => cases h
  | neutral => simp only [answer] at h; split_ifs at h <;> cases h
  | blank | decimal | word =>
    simp only [answer] at h ⊢
    split_ifs at h ⊢ <;> simp_all

theorem rewinds_neutral (c : Char) : (answer .neutral c).rewinds = false := by
  simp only [answer]
  split_ifs <;> rfl

theorem settles : machine.Settles := by
  intro s c _ h
  show (answer (answer s c).next c).rewinds = false
  rw [next_of_rewinds h]
  exact rewinds_neutral c

end SwitchList

theorem Language.machine_settles (l : Language) : l.machine.Settles := by
  cases l with
  | decoHack => exact Braces.settles .patch
  | rookScript | wadScript | doomMake => exact Braces.settles .script
  | wadMerge => exact MergeScript.settles
  | deuTex => exact TextureList.settles
  | defSwAni => exact SwitchList.settles

/-! ## Bounded pushback -/

/-- Each of the machines consumes a character that it has asked to see again. So for every language,
line state and text the loop ends, at one place; it shows no character more than twice, it is asked to
show one again at most as often as there are characters, and it leaves the runs and the line state of
the scan. -/
theorem pushback_bounded :
    (∀ d : Dialect, (Braces.machine d).Settles) ∧ MergeScript.machine.Settles ∧ TextureList.machine.Settles ∧
    SwitchList.machine.Settles ∧
    ∀ (l : Language) (state : LineState) (t : Text), ∃ x,
      l.machine.Ends (.start l.machine state t) x ∧
      (∀ y, l.machine.Ends (.start l.machine state t) y → y = x) ∧
      x.rest = [] ∧ x.finish l.machine = l.scan state t ∧
      (∀ i, x.calls.countP (·.left == i) ≤ 2) ∧ x.calls.length ≤ 2 * t.length ∧
      x.calls.countP (·.rewinds) ≤ t.length := by
  refine ⟨Braces.settles, MergeScript.settles, TextureList.settles, SwitchList.settles, ?_⟩
  intro l state t
  obtain ⟨x, new, hx, hrest, hfin, hcalls, hnew⟩ :=
    Machine.exists_ends l.machine_settles [] (l.machine.enter state) [] t []
  rw [List.nil_append] at hcalls
  rw [← hcalls] at hnew
  refine ⟨x, hx, fun y hy => hy.unique hx, hrest, ?_, hnew.twice, hnew.length_le, hnew.rewinds_le⟩
  rw [hfin, Language.scan_eq_machine_scan, List.nil_append]
  rfl

end DoomLex
