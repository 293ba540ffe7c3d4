/-
An alphabet is the set of the characters it was built from, in a canonical form. Its characters ascend strictly, and
there is one strictly ascending list with given members; so alphabets with the same characters are equal, however they
were built, and sorting the characters and dropping each that is equal to the one before it gives the same list.
-/
import DoomLex.Proofs.Text.Alphabets
import Mathlib.Data.Char
import Mathlib.Data.Finset.Card
import Mathlib.Data.List.Destutter
import Mathlib.Data.List.Sort

namespace DoomLex

/-! ## Neighbours that are equal -/

namespace Text

variable {c x : Char} {t : Text}

theorem mem_destutter'_ne : x ∈ t.destutter' (· ≠ ·) c ↔ x ∈ c :: t := by
  induction t generalizing c with
  | nil => rw [List.destutter'_nil]
  | cons d t ih =>
    by_cases hd : c = d
    · subst hd
      rw [List.destutter'_cons_neg _ (by simp), ih]
      simp
    · rw [List.destutter'_cons_pos _ hd, List.mem_cons, ih, ← List.mem_cons]

theorem mem_destutter_ne : x ∈ t.destutter (· ≠ ·) ↔ x ∈ t := by
  cases t with
  | nil => rfl
  | cons c t => exact mem_destutter'_ne

theorem pairwise_destutter' (h : (c :: t).Pairwise (· ≤ ·)) : (t.destutter' (· ≠ ·) c).Pairwise (· < ·) := by
  induction t generalizing c with
  | nil => exact List.pairwise_singleton _ c
  | cons d t ih =>
    obtain ⟨hc, ht⟩ := List.pairwise_cons.1 h
    by_cases hd : c = d
    · subst hd
      rw [List.destutter'_cons_neg _ (by simp)]
      exact ih ht
    · rw [List.destutter'_cons_pos _ hd]
      refine List.pairwise_cons.2 ⟨fun x hx => ?_, ih ht⟩
      -- what is kept is not before the next character, which differs from this one
      have hcd : c < d := lt_of_le_of_ne (hc d List.mem_cons_self) hd
      rcases List.mem_cons.1 (mem_destutter'_ne.1 hx) with rfl | hx
      · exact hcd
      · exact lt_of_lt_of_le hcd ((List.pairwise_cons.1 ht).1 x hx)

theorem pairwise_destutter (h : t.Pairwise (· ≤ ·)) : (t.destutter (· ≠ ·)).Pairwise (· < ·) := by
  cases t with
  | nil => exact List.Pairwise.nil
  | cons c t => exact pairwise_destutter' h

end Text

/-! ## Alphabets -/

namespace Alphabet

variable {a b : Alphabet} {t u : Text} {c : Char}

theorem mem_toText : c ∈ a.toText ↔ c ∈ a.chars := Array.mem_toList_iff

theorem mem_toText_ofText : c ∈ (ofText t).toText ↔ c ∈ t := mem_toText.trans mem_chars_ofText

/-- The characters of an alphabet are the one strictly ascending list of them. -/
theorem toText_eq (ht : t.Pairwise (· < ·)) (h : ∀ c, c ∈ a.chars ↔ c ∈ t) : a.toText = t :=
  a.ascending.eq_of_mem_iff ht fun c => mem_toText.trans (h c)

theorem ext_mem (h : ∀ c, c ∈ a.chars ↔ c ∈ b.chars) : a = b :=
  ext_chars (Array.toList_inj.1 (toText_eq b.ascending fun c => (h c).trans mem_toText.symm))

theorem size_ofText : (ofText t).size = t.toFinset.card := by
  have hmem : (ofText t).toText.toFinset = t.toFinset := by
    ext c
    rw [List.mem_toFinset, List.mem_toFinset, mem_toText_ofText]
  have hnodup : (ofText t).toText.Nodup := (ofText t).ascending.imp fun h => ne_of_lt h
  rw [← hmem, List.toFinset_card_of_nodup hnodup]
  rfl

theorem toText_ofText (t : Text) : (ofText t).toText = (t.mergeSort (· ≤ ·)).destutter (· ≠ ·) := by
  refine toText_eq (Text.pairwise_destutter (List.pairwise_mergeSort' (· ≤ ·) t)) fun c => ?_
  rw [mem_chars_ofText, Text.mem_destutter_ne, List.mem_mergeSort]

end Alphabet

open Alphabet in
/-- An alphabet is the set of the characters of its source. They are kept in strictly ascending order, just as sorting
the source and dropping repetitions leaves them; the search by halving finds exactly the characters of the source, and
there are as many as it has different ones. Sources with the same characters give equal alphabets, and so do the
characters of an alphabet themselves. -/
theorem alphabet_of_characters (s : String) :
    (ofString s).toText.Pairwise (· < ·) ∧
    (∀ c, (ofString s).contains c = true ↔ c ∈ s.toList) ∧
    (ofString s).size = s.toList.toFinset.card ∧
    (∀ r, ofString r = ofString s ↔ ∀ c, c ∈ r.toList ↔ c ∈ s.toList) ∧
    ofText (ofString s).toText = ofString s ∧
    (ofString s).toText = (s.toList.mergeSort (· ≤ ·)).destutter (· ≠ ·) := by
  refine ⟨(ofString s).ascending, fun c => contains_ofString, size_ofText, fun r => ⟨fun h c => ?_, fun h => ?_⟩, ?_,
    toText_ofText s.toList⟩
  · rw [← contains_ofString, ← contains_ofString, h]
  · refine ext_mem fun c => ?_
    rw [ofString, ofString, mem_chars_ofText, mem_chars_ofText, h c]
  · refine ext_mem fun c => ?_
    rw [mem_chars_ofText, mem_toText]

end DoomLex
