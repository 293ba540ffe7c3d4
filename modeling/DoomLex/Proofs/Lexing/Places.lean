/-
Places in a text: the loop over the characters may be looked at after every round. Wherever it stands,
the runs that have ended, the pending run and the characters still to come are the text, scanning on from
there leads to the runs and the line state of the whole scan, and between tokens nothing is pending.
Each round keeps this, so it holds of every place that the loop reaches.
-/
import DoomLex.Proofs.Lexing.Pushback
import Mathlib.Logic.Relation

namespace DoomLex

variable {σ : Type}

/-! ## Places on the way -/

namespace Machine

/-- Some number of rounds leads the loop from the first place to the second. -/
def Reaches (m : Machine σ) : Position σ → Position σ → Prop :=
  Relation.ReflTransGen fun x y => m.round x = some y

/-- Answers that leave a character pending lead to a state other than that between tokens. -/
def Clears (m : Machine σ) : Prop :=
  ∀ (s s' : σ) (c : Char), m.answer s c = .take s' ∨ m.answer s c = .split s' ∨ m.answer s c = .again s' →
    s' ≠ m.enter .neutral

end Machine

/-- A place from which the scan goes on to what it leads to from the start of the text. -/
structure Position.Agrees (m : Machine σ) (state : LineState) (t : Text) (x : Position σ) : Prop where
  outcome : (x.done ++ (m.scanFrom x.state x.pending x.rest).1, (m.scanFrom x.state x.pending x.rest).2) =
    m.scan state t
  clear : x.state = m.enter .neutral → x.pending = []

variable {m : Machine σ} {state : LineState} {t : Text}

/-- The place cuts the text after the runs that have ended and the pending run. -/
theorem Position.Agrees.text {x : Position σ} (h : x.Agrees m state t) :
    Run.textOf x.done ++ x.pending.reverse ++ x.rest = t := by
  have htext := congrArg (fun outcome => Run.textOf outcome.1) h.outcome
  rwa [Run.textOf_append, Machine.textOf_scanFrom, Machine.textOf_scan, ← List.append_assoc] at htext

namespace Machine

theorem agrees_start : (Position.start m state t).Agrees m state t := ⟨rfl, fun _ => rfl⟩

theorem absorb_clear (hclears : m.Clears) {s : σ} {c : Char} (pending : Text)
    (h : (m.absorb s pending c).next = m.enter .neutral) (hr : (m.answer s c).rewinds = false) :
    (m.absorb s pending c).pending = [] := by
  unfold absorb at h ⊢
  cases ha : m.answer s c with
  | take s' => rw [ha] at h; exact absurd h (hclears s s' c (.inl ha))
  | close kind s' => rfl
  | split s' => rw [ha] at h; exact absurd h (hclears s s' c (.inr (.inl ha)))
  | cut s' | again s' => rw [ha] at hr; cases hr

/-- One round keeps a place in agreement. -/
theorem agrees_of_round (hm : m.Settles) (hclears : m.Clears) {x y : Position σ} (h : m.round x = some y)
    (hx : x.Agrees m state t) : y.Agrees m state t := by
  obtain ⟨done, s, pending, rest, calls⟩ := x
  have houtcome := hx.outcome
  cases rest with
  | nil => rw [m.round_of_rest_nil rfl] at h; cases h
  | cons c rest =>
    by_cases hc : c = '\n'
    · subst hc
      rw [round_newline] at h
      obtain rfl := Option.some.inj h
      refine ⟨?_, fun _ => rfl⟩
      rw [← houtcome]
      simp [scanFrom_newline, scan]
    cases hr : (m.answer s c).rewinds with
    | false =>
      rw [m.round_of_consumes hc hr] at h
      obtain rfl := Option.some.inj h
      refine ⟨?_, fun hs => absorb_clear hclears pending hs hr⟩
      rw [← houtcome]
      simp [scanFrom_cons m hc, react_of_consumes hr]
    | true =>
      have hnext := hm s c hc hr
      rcases Answer.eq_of_rewinds hr with ⟨s', ha⟩ | ⟨s', ha⟩
      · rw [ha, Answer.next_cut] at hnext
        rw [m.round_of_cut hc ha] at h
        obtain rfl := Option.some.inj h
        refine ⟨?_, fun _ => rfl⟩
        rw [← houtcome]
        simp [scanFrom_cons m hc, react_of_cut ha hnext]
      · rw [ha, Answer.next_again] at hnext
        rw [m.round_of_again hc ha] at h
        obtain rfl := Option.some.inj h
        refine ⟨?_, fun hs => absurd hs (hclears s s' c (.inr (.inr ha)))⟩
        rw [← houtcome]
        simp [scanFrom_cons m hc, react_of_again ha hnext]

/-- Every place that the loop reaches from the start of a text is in agreement. -/
theorem agrees_of_reaches (hm : m.Settles) (hclears : m.Clears) {x : Position σ}
    (h : m.Reaches (.start m state t) x) : x.Agrees m state t := by
  induction h with
  | refl => exact agrees_start
  | tail _ hround ih => exact agrees_of_round hm hclears hround ih

end Machine

/-! ## The machines clear -/

theorem Braces.clears (d : Dialect) : (machine d).Clears := by
  rintro s s' c h rfl
  change answer d s c = .take .neutral ∨ answer d s c = .split .neutral ∨ answer d s c = .again .neutral at h
  cases s with
  | neutral =>
    simp only [answer, start] at h
    split_ifs at h <;> simp at h
  | literal q =>
    simp only [answer] at h
    cases hq : q.step d.wideEscapes c <;> simp [hq] at h
  | block b =>
    simp only [answer] at h
    cases hb : b.step c <;> simp [hb] at h
  | numeral n =>
    simp only [answer] at h
    cases hn : n.step d c <;> simp [hn] at h
  | lineComment => simp [answer] at h
  | blank | directive | directiveCarried | backquote | slash | punctuation | word =>
    simp only [answer] at h
    split_ifs at h <;> simp at h

namespace MergeScript

theorem clears : machine.Clears := by
  rintro s s' c h rfl
  change answer s c = .take .neutral ∨ answer s c = .split .neutral ∨ answer s c = .again .neutral at h
  cases s with
  | literal q =>
    simp only [answer] at h
    split_ifs at h
    · simp at h
    · cases hq : q.step true c <;> simp [hq] at h
  | argument host a =>
    simp only [answer] at h
    cases ha : a.step c <;> simp [ha] at h
  | comment => simp [answer] at h
  | neutral | blank | word | decimal =>
    simp only [answer] at h
    split_ifs at h <;> simp at h

end MergeScript

end DoomLex
