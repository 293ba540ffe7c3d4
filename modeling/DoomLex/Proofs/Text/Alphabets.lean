/-
Alphabets are sets: a character belongs to the alphabet of a text exactly if it stands in the text, in
whatever order and however often. The search by halving finds what is there, for the characters are in
ascending order: left of the place found they are smaller than the one sought, from it on they are not.
-/
import DoomLex.Alphabet

namespace DoomLex.Alphabet

theorem mem_chars_insert {a : Alphabet} {c x : Char} : x ∈ (a.insert c).chars ↔ x = c ∨ x ∈ a.chars := by
  rw [insert, List.mem_toArray, mem_insertAscending, Array.mem_toList_iff]

theorem mem_chars_ofText {t : Text} {x : Char} : x ∈ (ofText t).chars ↔ x ∈ t := by
  have hfold : ∀ (a : Alphabet), x ∈ (t.foldl insert a).chars ↔ x ∈ a.chars ∨ x ∈ t := by
    induction t with
    | nil => simp
    | cons c t ih =>
      intro a
      rw [List.foldl_cons, ih, mem_chars_insert, List.mem_cons]
      constructor
      · rintro ((h | h) | h) <;> simp [h]
      · rintro (h | h | h) <;> simp [h]
  simp [ofText, hfold, empty]

/-- The characters left of a place are smaller. -/
theorem lt_of_lt {a : Alphabet} {i j : Nat} {x y : Char} (hij : i < j) (hx : a.chars[i]? = some x)
    (hy : a.chars[j]? = some y) : x < y := by
  obtain ⟨hi, rfl⟩ := Array.getElem?_eq_some_iff.1 hx
  obtain ⟨hj, rfl⟩ := Array.getElem?_eq_some_iff.1 hy
  have h := List.pairwise_iff_getElem.1 a.ascending i j (by simpa using hi) (by simpa using hj) hij
  simpa using h

/-- The search for a character stops at its place. -/
theorem bisect_eq_of_getElem? {a : Alphabet} {c : Char} {k : Nat} (hk : a.chars[k]? = some c) :
    bisect (fun i => a.chars[i]?.any (· < c)) 0 a.chars.size = k := by
  let below : Nat → Bool := fun i => a.chars[i]?.any (· < c)
  have hbelow : ∀ i, below i = true ↔ ∃ x, a.chars[i]? = some x ∧ x < c := by
    intro i
    simp only [below, Option.any_eq_true, decide_eq_true_eq]
  have hsize : k < a.chars.size := (Array.getElem?_eq_some_iff.1 hk).1
  have hmono : ∀ i j, i ≤ j → below j = true → below i = true := by
    intro i j hij hj
    obtain ⟨y, hy, hyc⟩ := (hbelow j).1 hj
    rcases Nat.eq_or_lt_of_le hij with rfl | hlt
    · exact hj
    · have hi : i < a.chars.size := Nat.lt_trans hlt (Array.getElem?_eq_some_iff.1 hy).1
      have hx : a.chars[i]? = some a.chars[i] := Array.getElem?_eq_getElem hi
      exact (hbelow i).2 ⟨a.chars[i], hx, Char.lt_trans (lt_of_lt hlt hx hy) hyc⟩
  obtain ⟨hleft, hright⟩ := bisect_spec (Nat.zero_le a.chars.size) hmono
  -- all characters left of the one sought are smaller than it, and it is not smaller than itself
  have hself : below k = false := by simp [below, hk]
  have hsmaller : ∀ i < k, below i = true := by
    intro i hi
    have hx : a.chars[i]? = some a.chars[i] := Array.getElem?_eq_getElem (Nat.lt_trans hi hsize)
    exact (hbelow i).2 ⟨a.chars[i], hx, lt_of_lt hi hx hk⟩
  rcases Nat.lt_trichotomy (bisect below 0 a.chars.size) k with hlt | heq | hgt
  · have h := hright _ (Nat.le_refl _) (Nat.lt_trans hlt hsize)
    rw [hsmaller _ hlt] at h
    cases h
  · exact heq
  · have h := hleft k (Nat.zero_le k) hgt
    rw [hself] at h
    cases h

theorem contains_iff_mem_chars {a : Alphabet} {c : Char} : a.contains c = true ↔ c ∈ a.chars := by
  have hfound : a.contains c =
      (a.chars[bisect (fun i => a.chars[i]?.any (· < c)) 0 a.chars.size]? == some c) := rfl
  rw [hfound, beq_iff_eq]
  constructor
  · exact Array.mem_of_getElem?
  · intro hc
    obtain ⟨k, hk⟩ := Array.getElem?_of_mem hc
    rw [bisect_eq_of_getElem? hk, hk]

theorem contains_ofString {s : String} {c : Char} : (ofString s).contains c = true ↔ c ∈ s.toList := by
  rw [contains_iff_mem_chars, ofString, mem_chars_ofText]

end DoomLex.Alphabet
