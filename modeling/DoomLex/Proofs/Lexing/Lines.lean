/-
Lines that are lexed by themselves. A machine that keeps nothing over a line break makes of a text the runs
of its lines with a run for the line break between each two, in whatever state the text starts. Within a
line, a stretch that the machine takes up to a character before which it cuts is one run, and what follows
is scanned from where the cut leads.
-/
import DoomLex.Proofs.Lexing.Pushback
import DoomLex.Proofs.Lexing.Stretches
import DoomLex.Proofs.Text.Cut

namespace DoomLex

/-! ## Lines and spans of a text -/

namespace Text

theorem newline_notMem_of_mem_lines {t line : Text} (h : line ∈ lines t) : '\n' ∉ line :=
  notMem_of_mem_splitOn h

/-- Lines that are each ended by a line break are read back, with an empty one after the last break. -/
theorem lines_flatMap_newline {ls : List Text} (h : ∀ line ∈ ls, '\n' ∉ line) :
    lines (ls.flatMap (· ++ ['\n'])) = ls ++ [[]] := by
  have hjoin : ls.flatMap (· ++ ['\n']) = joinLines (ls ++ [[]]) := by
    induction ls with
    | nil => rfl
    | cons line ls ih =>
      obtain ⟨next, rest, hnext⟩ : ∃ next rest, ls ++ [[]] = next :: rest :=
        List.exists_cons_of_ne_nil (List.append_ne_nil_of_right_ne_nil ls (List.cons_ne_nil [] []))
      rw [List.flatMap_cons, ih (List.forall_mem_cons.1 h).2, List.cons_append, hnext, joinLines_cons_cons,
        List.append_assoc]
      rfl
  rw [hjoin]
  refine List.splitOn_intercalate '\n' (fun line hline => ?_) (by simp)
  rcases List.mem_append.1 hline with hmem | hlast
  · exact h line hmem
  · rw [List.mem_singleton.1 hlast]
    exact List.not_mem_nil

/-- A text falls into the longest start with a property and what follows it. -/
theorem exists_span (p : Char → Bool) (t : Text) :
    ∃ w rest, t = w ++ rest ∧ (∀ c ∈ w, p c = true) ∧ ∀ c ∈ rest.head?, p c = false := by
  refine ⟨t.takeWhile p, t.dropWhile p, List.takeWhile_append_dropWhile.symm, ?_, ?_⟩
  · intro c hc
    exact List.all_eq_true.1 List.all_takeWhile c hc
  · intro c hc
    have h := List.head?_dropWhile_not p t
    rw [Option.mem_def.1 hc] at h
    exact h

/-- What follows starts with a blank, if it is not empty. -/
def BlankNext (rest : Text) : Prop := ∀ c ∈ rest.head?, isBlank c = true

end Text

/-! ## Line by line -/

namespace Machine

variable {σ : Type} {m : Machine σ}

/-- The machine keeps nothing over a line break. -/
structure Forgets (m : Machine σ) : Prop where
  enter : ∀ state, m.enter state = m.enter .neutral
  leave : ∀ s, m.leave s = .neutral

theorem Forgets.scan_eq (hm : m.Forgets) (state : LineState) (t : Text) :
    m.scan state t = m.scan .neutral t := by
  unfold scan
  rw [hm.enter state]

theorem Forgets.scanFrom_snd (hm : m.Forgets) (s : σ) (pending t : Text) :
    (m.scanFrom s pending t).2 = .neutral := by
  induction t generalizing s pending with
  | nil => exact hm.leave s
  | cons c t ih =>
    by_cases hc : c = '\n'
    · subst hc
      rw [scanFrom_newline]
      exact ih _ _
    · rw [scanFrom_cons m hc]
      exact ih _ _

theorem Forgets.scan_joinLines (hm : m.Forgets) {ls : List Text} (hne : ls ≠ []) :
    m.scan .neutral (Text.joinLines ls) =
      ([Run.newline].intercalate (ls.map fun line => (m.scan .neutral line).1), .neutral) := by
  induction ls with
  | nil => exact absurd rfl hne
  | cons line rest ih =>
    cases rest with
    | nil =>
      rw [Text.joinLines_singleton, List.map_singleton, List.intercalate_singleton]
      exact Prod.ext rfl (hm.scanFrom_snd _ _ _)
    | cons next rest =>
      have hrest := ih (List.cons_ne_nil _ _)
      have hnext : (m.scanFrom (m.enter .neutral) [] line).2 = .neutral := hm.scanFrom_snd _ _ _
      rw [Text.joinLines_cons_cons, scan, scanFrom_append_newline, hnext, hrest]
      simp [scan, List.intercalate_cons_cons]

/-- The runs of a text are those of its lines, with a line break between each two. -/
theorem Forgets.scan_lines (hm : m.Forgets) (state : LineState) (t : Text) :
    m.scan state t =
      ([Run.newline].intercalate ((Text.lines t).map fun line => (m.scan .neutral line).1), .neutral) := by
  have h := hm.scan_joinLines (Text.lines_ne_nil t)
  rwa [Text.joinLines_lines, ← hm.scan_eq state] at h

/-! ## Runs that are taken up to a cut -/

theorem Takes.append {s s' s'' : σ} {t u : Text} (h : m.Takes s t s') (hu : m.Takes s' u s'') :
    m.Takes s (t ++ u) s'' := by
  induction h with
  | nil => exact hu
  | cons hc h _ ih => exact .cons hc h (ih hu)

theorem Takes.of_forall {s : σ} {t : Text} (hnewline : '\n' ∉ t) (h : ∀ c ∈ t, m.answer s c = .take s) :
    m.Takes s t s := by
  induction t with
  | nil => exact .nil
  | cons c t ih =>
    rw [List.mem_cons, not_or] at hnewline
    obtain ⟨hc, ht⟩ := List.forall_mem_cons.1 h
    exact .cons (Ne.symm hnewline.1) hc (ih hnewline.2 ht)

/-- A stretch that is taken up to a character before which the machine cuts, or up to the end of the text, is
one run. -/
theorem scanFrom_of_takes_cut {s s' next : σ} {w rest : Text} (h : m.Takes s w s') (hne : w ≠ [])
    (hcut : ∀ c ∈ rest.head?, m.answer s' c = .cut next)
    (hnext : ∀ c ∈ rest.head?, (m.answer next c).rewinds = false)
    (hlast : m.lastLabel s' w = m.label s' w) (hleave : m.leave s' = m.leave next) :
    m.scanFrom s [] (w ++ rest) =
      (⟨m.label s' w, w⟩ :: (m.scanFrom next [] rest).1, (m.scanFrom next [] rest).2) := by
  have hrun : Run.ofPending (m.label s') w.reverse = [⟨m.label s' w, w⟩] := by
    simp [Run.ofPending, hne]
  rw [scanFrom_of_takes h, List.append_nil]
  cases rest with
  | nil =>
    rw [scanFrom_nil, scanFrom_nil, hleave]
    simp [Run.ofPending, hne, hlast]
  | cons c rest =>
    by_cases hc : c = '\n'
    · subst hc
      rw [scanFrom_newline, scanFrom_newline, hleave]
      simp [Run.ofPending, hne, hlast]
    · rw [scanFrom_cons m hc, scanFrom_cons m hc, react_of_cut (hcut c rfl) (hnext c rfl), hrun]
      simp

end Machine

end DoomLex
