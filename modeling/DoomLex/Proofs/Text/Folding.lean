/-
What folding the case of ASCII letters leaves as it is. Only the 26 capital letters are changed, so a
property of characters that does not tell any of them from its small letter does not change at all, and
the characters that are no letters are the same before and after.
-/
import DoomLex.Text.Alphabetic
import DoomLex.Text.Blank
import DoomLex.Text.Case
import DoomLex.Text.Digits
import DoomLex.WordTable

namespace DoomLex.Text

/-! ## Characters -/

/-- The capital letters of ASCII. -/
def capitals : Text := (List.range 26).map fun i => Char.ofNat ('A'.toNat + i)

theorem toLower_eq_self_or_mem_capitals (c : Char) : c.toLower = c ∨ c ∈ capitals := by
  unfold Char.toLower
  split
  · rename_i h
    right
    -- a capital letter is the one at its distance from the first
    obtain ⟨hlo, hhi⟩ := h
    have hlo : 65 ≤ c.toNat := UInt32.le_iff_toNat_le.1 hlo
    have hhi : c.toNat ≤ 90 := UInt32.le_iff_toNat_le.1 hhi
    refine List.mem_map.2 ⟨c.toNat - 65, List.mem_range.2 (by omega), ?_⟩
    have hsum : 'A'.toNat + (c.toNat - 65) = c.toNat := by
      show 65 + (c.toNat - 65) = c.toNat
      omega
    rw [hsum, Char.ofNat_toNat]
  · exact .inl rfl

/-- What does not tell a capital letter from its small one is the same before and after folding. -/
theorem toLower_invariant {α : Type} [DecidableEq α] {f : Char → α}
    (h : capitals.all (fun c => f c.toLower = f c) = true) (c : Char) : f c.toLower = f c := by
  rcases toLower_eq_self_or_mem_capitals c with hc | hc
  · rw [hc]
  · exact of_decide_eq_true (List.all_eq_true.1 h c hc)

theorem utf8Size_toLower (c : Char) : c.toLower.utf8Size = c.utf8Size :=
  toLower_invariant (f := Char.utf8Size) (by decide) c

theorem isBlank_toLower (c : Char) : isBlank c.toLower = isBlank c :=
  toLower_invariant (f := isBlank) (by decide) c

theorem isDigit_toLower (c : Char) : isDigit c.toLower = isDigit c :=
  toLower_invariant (f := isDigit) (by decide) c

theorem isHexDigit_toLower (c : Char) : isHexDigit c.toLower = isHexDigit c :=
  toLower_invariant (f := isHexDigit) (by decide) c

theorem isAlphabetic_toLower (c : Char) : isAlphabetic c.toLower = isAlphabetic c :=
  toLower_invariant (f := isAlphabetic) (by decide) c

theorem isAlphanumeric_toLower (c : Char) : isAlphanumeric c.toLower = isAlphanumeric c :=
  toLower_invariant (f := isAlphanumeric) (by decide) c

theorem toLower_of_not_isUpper {c : Char} (h : c.isUpper = false) : c.toLower = c := by
  have hcapitals : capitals.all Char.isUpper = true := by decide
  rcases toLower_eq_self_or_mem_capitals c with hc | hc
  · exact hc
  · rw [List.all_eq_true.1 hcapitals c hc] at h
    cases h

/-- A character that is no letter comes from itself only. -/
theorem toLower_eq_iff {c d : Char} (hd : d.isAlpha = false) : c.toLower = d ↔ c = d := by
  have hletters : capitals.all (fun c => c.isAlpha && c.toLower.isAlpha) = true := by decide
  rcases toLower_eq_self_or_mem_capitals c with hc | hc
  · rw [hc]
  · obtain ⟨hupper, hlower⟩ := (Bool.and_eq_true ..).mp (List.all_eq_true.1 hletters c hc)
    constructor
    · rintro rfl
      rw [hlower] at hd
      cases hd
    · rintro rfl
      rw [hupper] at hd
      cases hd

/-! ## Texts -/

@[simp] theorem foldCase_foldCase (t : Text) : foldCase (foldCase t) = foldCase t := by
  rw [foldCase, foldCase, List.map_map]
  exact List.map_congr_left fun c _ => toLower_invariant (f := Char.toLower) (by decide) c

theorem foldCase_reverse (t : Text) : foldCase t.reverse = (foldCase t).reverse := by
  simp [foldCase]

@[simp] theorem width_foldCase (t : Text) : width (foldCase t) = width t := by
  induction t with
  | nil => rfl
  | cons c t ih => simp [ih, utf8Size_toLower]

theorem foldCase_of_not_isUpper {t : Text} (h : ∀ c ∈ t, c.isUpper = false) : foldCase t = t := by
  rw [foldCase, List.map_congr_left fun c hc => toLower_of_not_isUpper (h c hc), List.map_id']

/-- A text without letters comes from itself only. -/
theorem foldCase_eq_iff {t u : Text} (hu : ∀ c ∈ u, c.isAlpha = false) : foldCase t = u ↔ t = u := by
  induction t generalizing u with
  | nil => simp
  | cons c t ih =>
    cases u with
    | nil => simp
    | cons d u =>
      obtain ⟨hd, hu⟩ := List.forall_mem_cons.1 hu
      rw [foldCase_cons, List.cons.injEq, List.cons.injEq, toLower_eq_iff hd, ih hu]

end DoomLex.Text

/-! ## Words -/

/-- A word that is not folded, having no capital letters, is its own folded form. -/
theorem DoomLex.CaseRule.fold_insensitive (word : Text) : insensitive.fold word = Text.foldCase word := by
  rw [fold]
  split
  · rfl
  · rename_i hcapitals
    rw [Bool.not_eq_true, List.any_eq_false] at hcapitals
    exact (Text.foldCase_of_not_isUpper fun c hc => Bool.eq_false_iff.2 (hcapitals c hc)).symm

namespace DoomLex.WordTable

variable {α : Type}

theorem rule_ofList (rule : CaseRule) (entries : List (Text × α)) : (ofList rule entries).rule = rule := by
  have hput : ∀ table : WordTable α,
      (entries.foldl (fun table e => table.put e.1 e.2) table).rule = table.rule := by
    induction entries with
    | nil => exact fun _ => rfl
    | cons e entries ih => exact fun table => ih (table.put e.1 e.2)
  exact hput (empty rule)

theorem get?_foldCase {table : WordTable α} (h : table.rule = .insensitive) (word : Text) :
    table.get? (Text.foldCase word) = table.get? word := by
  rw [get?, get?, h, CaseRule.fold_insensitive, CaseRule.fold_insensitive, Text.foldCase_foldCase]

end DoomLex.WordTable
