/-
Cuts of a text at byte positions: a text can be cut where no character stands across, and a stretch
between two such positions is sliced out as it is. A text that is cut at a separator has it in no stretch.
-/
import DoomLex.Text.Basic
import Mathlib.Tactic.SplitIfs

namespace DoomLex.Text

/-- A byte position between two characters of a text, or at one of its ends. -/
def IsBoundary (t : Text) (n : Nat) : Prop := ∃ before after, t = before ++ after ∧ width before = n

theorem splitAt?_zero (t : Text) : splitAt? t 0 = some ([], t) := by
  cases t <;> rfl

theorem splitAt?_append (before after : Text) :
    splitAt? (before ++ after) (width before) = some (before, after) := by
  induction before with
  | nil => exact splitAt?_zero after
  | cons c before ih =>
    have hc := Char.utf8Size_pos c
    obtain ⟨n, hn⟩ : ∃ n, width (c :: before) = n + 1 := ⟨width (c :: before) - 1, by rw [width_cons]; omega⟩
    have hsub : n + 1 - c.utf8Size = width before := by rw [← hn, width_cons]; omega
    rw [hn, List.cons_append, splitAt?, if_pos (by rw [← hn, width_cons]; omega), hsub, ih]
    rfl

/-- A stretch of a text is what the slice between its two ends gives. -/
theorem slice?_append (before inside after : Text) :
    slice? (before ++ inside ++ after) (width before) (width before + width inside) = some inside := by
  have h : width before + width inside - width before = width inside := by omega
  rw [slice?, if_pos (Nat.le_add_right ..), h, List.append_assoc, splitAt?_append]
  simp [splitAt?_append]

theorem append_of_splitAt? {t s r : Text} {n : Nat} (h : splitAt? t n = some (s, r)) :
    t = s ++ r ∧ width s = n := by
  fun_induction splitAt? t n generalizing s with
  | case1 t =>
    obtain ⟨rfl, rfl⟩ := Prod.mk.inj (Option.some.inj h)
    exact ⟨rfl, rfl⟩
  | case2 => cases h
  | case3 c t n hle ih =>
    obtain ⟨⟨s', r'⟩, hcut, heq⟩ := Option.map_eq_some_iff.1 h
    obtain ⟨rfl, rfl⟩ := Prod.mk.inj heq
    obtain ⟨rfl, hwidth⟩ := ih hcut
    refine ⟨rfl, ?_⟩
    rw [width_cons]
    omega
  | case4 => cases h

/-- A slice ends between two characters. -/
theorem isBoundary_of_slice? {t u : Text} {start stop : Nat} (h : slice? t start stop = some u) :
    t.IsBoundary stop := by
  unfold slice? at h
  split at h
  · obtain ⟨⟨front, rest⟩, hfront, h⟩ := Option.bind_eq_some_iff.1 h
    obtain ⟨⟨inside, back⟩, hinside, -⟩ := Option.bind_eq_some_iff.1 h
    obtain ⟨rfl, hstart⟩ := append_of_splitAt? hfront
    obtain ⟨rfl, hwidth⟩ := append_of_splitAt? hinside
    refine ⟨front ++ inside, back, (List.append_assoc ..).symm, ?_⟩
    rw [width_append]
    omega
  · cases h

/-- No boundary lies within a character. -/
theorem not_isBoundary_inside {before after : Text} {c : Char} {n : Nat} (hstart : width before < n)
    (hstop : n < width before + c.utf8Size) : ¬ (before ++ c :: after).IsBoundary n := by
  rintro ⟨front, back, htext, rfl⟩
  rcases List.append_eq_append_iff.1 htext.symm with ⟨between, rfl, -⟩ | ⟨between, rfl, hback⟩
  · rw [width_append] at hstart
    omega
  · rw [width_append] at hstart hstop
    cases between with
    | nil =>
      rw [width_nil] at hstart
      omega
    | cons d between =>
      obtain ⟨rfl, -⟩ := List.cons.inj hback
      rw [width_cons] at hstop
      omega

/-- Of two starts of a text the one with fewer bytes has fewer characters. -/
theorem length_lt_of_width_lt {s s' t : Text} (hs : s <+: t) (hs' : s' <+: t) (h : width s < width s') :
    s.length < s'.length := by
  rcases List.prefix_or_prefix_of_prefix hs hs' with ⟨x, rfl⟩ | ⟨x, rfl⟩
  · have hx : x ≠ [] := by
      rintro rfl
      rw [List.append_nil] at h
      omega
    have := List.length_pos_iff.2 hx
    rw [List.length_append]
    omega
  · rw [width_append] at h
    omega

/-! ## Stretches between separators -/

theorem notMem_of_mem_splitOn {separator : Char} {t stretch : Text} (h : stretch ∈ t.splitOn separator) :
    separator ∉ stretch := by
  rw [List.splitOn_eq_splitOnP] at h
  induction t generalizing stretch with
  | nil =>
    rw [List.splitOnP_nil, List.mem_singleton] at h
    rw [h]
    exact List.not_mem_nil
  | cons c t ih =>
    rw [List.splitOnP_cons_eq_if_modifyHead] at h
    split_ifs at h with hc
    · rcases List.mem_cons.1 h with rfl | h
      · exact List.not_mem_nil
      · exact ih h
    · -- the character goes in front of the first of the stretches after it
      obtain ⟨first, rest, hrest⟩ := List.exists_cons_of_ne_nil (List.splitOnP_ne_nil (· == separator) t)
      rw [hrest] at h ih
      rcases List.mem_cons.1 h with rfl | h
      · rw [List.mem_cons, not_or]
        exact ⟨fun hn => hc (by simp [← hn]), ih List.mem_cons_self⟩
      · exact ih (List.mem_cons_of_mem _ h)

end DoomLex.Text
