/-
What every scan gives, whatever the machine: its runs are never empty, put together they are the
text, and at a line break it splits into the scan before it, the run of the line break and the scan
after it from the state left there. A language scans with one machine, so all this holds of every
language.
-/
import DoomLex.Language

namespace DoomLex

/-! ## The machine of a language -/

namespace Language

/-- The states of the machine that scans a language. -/
def MachineState : Language → Type
  | decoHack | rookScript | wadScript | doomMake => Braces.Scan
  | wadMerge => MergeScript.Scan
  | deuTex => TextureList.Scan
  | defSwAni => SwitchList.Scan

/-- The machine that scans a language. -/
def machine : (l : Language) → Machine l.MachineState
  | decoHack => Braces.machine .patch
  | rookScript | wadScript | doomMake => Braces.machine .script
  | wadMerge => MergeScript.machine
  | deuTex => TextureList.machine
  | defSwAni => SwitchList.machine

theorem scan_eq_machine_scan (l : Language) (state : LineState) (t : Text) :
    l.scan state t = l.machine.scan state t := by
  cases l <;> rfl

end Language

/-! ## The text of runs -/

namespace Run

@[simp] theorem textOf_nil : textOf [] = [] := rfl

@[simp] theorem textOf_cons (r : Run) (runs : List Run) :
    textOf (r :: runs) = r.text ++ textOf runs := by
  simp [textOf]

@[simp] theorem textOf_append (runs runs' : List Run) :
    textOf (runs ++ runs') = textOf runs ++ textOf runs' := by
  simp [textOf]

@[simp] theorem textOf_ofPending (kind : Text → Kind) (pending : Text) :
    textOf (ofPending kind pending) = pending.reverse := by
  cases pending <;> simp [ofPending]

theorem ne_nil_of_mem_ofPending {kind : Text → Kind} {pending : Text} {r : Run}
    (h : r ∈ ofPending kind pending) : r.text ≠ [] := by
  unfold ofPending at h
  split at h
  · cases h
  · rename_i hp
    obtain rfl := List.mem_singleton.1 h
    intro he
    exact hp (by simpa using he)

theorem kind_of_mem_ofPending {kind : Text → Kind} {pending : Text} {r : Run}
    (h : r ∈ ofPending kind pending) : r.kind = kind pending.reverse := by
  unfold ofPending at h
  split at h
  · cases h
  · rw [List.mem_singleton.1 h]

end Run

/-! ## One character -/

namespace Machine

variable {σ : Type} (m : Machine σ)

/-- The runs that end at a character and the pending run after it are the pending run before it and
the character. -/
theorem textOf_absorb (s : σ) (pending : Text) (c : Char) :
    Run.textOf (m.absorb s pending c).done ++ (m.absorb s pending c).pending.reverse =
      pending.reverse ++ [c] := by
  unfold absorb
  cases m.answer s c <;> simp

theorem textOf_react (s : σ) (pending : Text) (c : Char) :
    Run.textOf (m.react s pending c).done ++ (m.react s pending c).pending.reverse =
      pending.reverse ++ [c] := by
  unfold react
  split
  · -- the pending run ends, and the character is absorbed with none pending
    rename_i next _
    have h := textOf_absorb m next [] c
    rw [Run.textOf_append, Run.textOf_ofPending, List.append_assoc, h]
    rfl
  · exact textOf_absorb m _ pending c
  · exact textOf_absorb m s pending c

theorem ne_nil_of_mem_absorb {s : σ} {pending : Text} {c : Char} {r : Run}
    (h : r ∈ (m.absorb s pending c).done) : r.text ≠ [] := by
  unfold absorb at h
  split at h
  · obtain rfl := List.mem_singleton.1 h
    simp
  · exact Run.ne_nil_of_mem_ofPending h
  all_goals cases h

theorem ne_nil_of_mem_react {s : σ} {pending : Text} {c : Char} {r : Run}
    (h : r ∈ (m.react s pending c).done) : r.text ≠ [] := by
  unfold react at h
  split at h
  · rcases List.mem_append.1 h with h | h
    · exact Run.ne_nil_of_mem_ofPending h
    · exact ne_nil_of_mem_absorb m h
  · exact ne_nil_of_mem_absorb m h
  · exact ne_nil_of_mem_absorb m h

/-! ## A text -/

@[simp] theorem scanFrom_nil (s : σ) (pending : Text) :
    m.scanFrom s pending [] = (Run.ofPending (m.lastLabel s) pending, m.leave s) := rfl

theorem scanFrom_newline (s : σ) (pending t : Text) :
    m.scanFrom s pending ('\n' :: t) =
      (Run.ofPending (m.lastLabel s) pending ++ Run.newline :: (m.scan (m.leave s) t).1,
        (m.scan (m.leave s) t).2) := by
  simp [scanFrom, scan]

theorem scanFrom_cons {c : Char} (hc : c ≠ '\n') (s : σ) (pending t : Text) :
    m.scanFrom s pending (c :: t) =
      ((m.react s pending c).done ++
          (m.scanFrom (m.react s pending c).next (m.react s pending c).pending t).1,
        (m.scanFrom (m.react s pending c).next (m.react s pending c).pending t).2) := by
  simp [scanFrom, hc]

/-- No character is lost or doubled: the runs are the pending run and the text. -/
theorem textOf_scanFrom (s : σ) (pending t : Text) :
    Run.textOf (m.scanFrom s pending t).1 = pending.reverse ++ t := by
  induction t generalizing s pending with
  | nil => simp
  | cons c t ih =>
    by_cases hc : c = '\n'
    · subst hc
      have h : Run.textOf (m.scan (m.leave s) t).1 = t := by
        simpa [scan] using ih (m.enter (m.leave s)) []
      rw [scanFrom_newline, Run.textOf_append, Run.textOf_cons, Run.textOf_ofPending, h]
      rfl
    · rw [scanFrom_cons m hc, Run.textOf_append, ih, ← List.append_assoc, textOf_react]
      simp

theorem textOf_scan (state : LineState) (t : Text) : Run.textOf (m.scan state t).1 = t :=
  textOf_scanFrom m (m.enter state) [] t

theorem ne_nil_of_mem_scanFrom {s : σ} {pending t : Text} {r : Run}
    (h : r ∈ (m.scanFrom s pending t).1) : r.text ≠ [] := by
  induction t generalizing s pending with
  | nil => exact Run.ne_nil_of_mem_ofPending h
  | cons c t ih =>
    by_cases hc : c = '\n'
    · subst hc
      rw [scanFrom_newline] at h
      rcases List.mem_append.1 h with h | h
      · exact Run.ne_nil_of_mem_ofPending h
      · rcases List.mem_cons.1 h with rfl | h
        · simp [Run.newline]
        · exact ih h
    · rw [scanFrom_cons m hc] at h
      rcases List.mem_append.1 h with h | h
      · exact ne_nil_of_mem_react m h
      · exact ih h

/-- No run has a line break in it but that of the line break itself. -/
theorem newline_notMem_of_mem_scanFrom {s : σ} {pending t : Text} {r : Run} (hpending : '\n' ∉ pending)
    (h : r ∈ (m.scanFrom s pending t).1) : r = Run.newline ∨ '\n' ∉ r.text := by
  have hmem : ∀ {runs : List Run}, '\n' ∉ Run.textOf runs → r ∈ runs → '\n' ∉ r.text :=
    fun hruns hr hnewline => hruns (List.mem_flatMap.2 ⟨r, hr, hnewline⟩)
  induction t generalizing s pending with
  | nil => exact .inr (hmem (by simpa using hpending) h)
  | cons c t ih =>
    by_cases hc : c = '\n'
    · subst hc
      rw [scanFrom_newline] at h
      rcases List.mem_append.1 h with h | h
      · exact .inr (hmem (by simpa using hpending) h)
      · rcases List.mem_cons.1 h with rfl | h
        · exact .inl rfl
        · exact ih List.not_mem_nil h
    · have hreact : '\n' ∉ Run.textOf (m.react s pending c).done ++ (m.react s pending c).pending.reverse := by
        rw [textOf_react]
        simp [hpending, Ne.symm hc]
      rw [List.mem_append, not_or] at hreact
      rw [scanFrom_cons m hc] at h
      rcases List.mem_append.1 h with h | h
      · exact .inr (hmem hreact.1 h)
      · exact ih (by simpa using hreact.2) h

/-- A scan over a line break is the scan before it, the run of the line break, and the scan after it
from the state in which the line was left. -/
theorem scanFrom_append_newline (s : σ) (pending a b : Text) :
    m.scanFrom s pending (a ++ '\n' :: b) =
      ((m.scanFrom s pending a).1 ++ Run.newline :: (m.scan (m.scanFrom s pending a).2 b).1,
        (m.scan (m.scanFrom s pending a).2 b).2) := by
  induction a generalizing s pending with
  | nil => exact scanFrom_newline m s pending b
  | cons c a ih =>
    rw [List.cons_append]
    by_cases hc : c = '\n'
    · -- a line break in the first text itself: the scan starts over there, in the state left
      subst hc
      rw [scanFrom_newline, scanFrom_newline, scan, ih]
      simp [scan]
    · rw [scanFrom_cons m hc, scanFrom_cons m hc, ih]
      simp

end Machine

/-! ## The runs of a language -/

namespace Language

theorem textOf_scan (l : Language) (state : LineState) (t : Text) :
    Run.textOf (l.scan state t).1 = t := by
  rw [scan_eq_machine_scan]
  exact l.machine.textOf_scan state t

theorem ne_nil_of_mem_scan {l : Language} {state : LineState} {t : Text} {r : Run}
    (h : r ∈ (l.scan state t).1) : r.text ≠ [] := by
  rw [scan_eq_machine_scan] at h
  exact l.machine.ne_nil_of_mem_scanFrom h

theorem newline_notMem_of_mem_scan {l : Language} {state : LineState} {t : Text} {r : Run}
    (h : r ∈ (l.scan state t).1) : r = Run.newline ∨ '\n' ∉ r.text := by
  rw [scan_eq_machine_scan] at h
  exact l.machine.newline_notMem_of_mem_scanFrom List.not_mem_nil h

theorem scan_append_newline (l : Language) (state : LineState) (a b : Text) :
    l.scan state (a ++ '\n' :: b) =
      ((l.scan state a).1 ++ Run.newline :: (l.scan (l.scan state a).2 b).1,
        (l.scan (l.scan state a).2 b).2) := by
  simp only [scan_eq_machine_scan]
  exact l.machine.scanFrom_append_newline (l.machine.enter state) [] a b

end Language

end DoomLex
