/-
A word table is the dictionary of its entries. Words are told apart as they are, or up to the case of ASCII letters;
of several entries for a word the last one counts. All of it rests on one law of folding: two words have one folded
form exactly if they are one word, so what is stored under that form is found under every spelling of the word. A word
without capital letters is its own folded form, so that it may be stored and sought as it is.
-/
import DoomLex.Proofs.Text.Words
import Mathlib.Data.List.Forall2
import Mathlib.Data.Set.Card

namespace DoomLex

/-! ## One word in several spellings -/

namespace Text

variable {c d : Char} {v w : Text}

/-- The same character, or one ASCII letter written small and large. -/
inductive SameLetter : Char → Char → Prop
  | same (c : Char) : SameLetter c c
  | small (i : Fin 26) : SameLetter (Char.ofNat (65 + i)) (Char.ofNat (97 + i))
  | large (i : Fin 26) : SameLetter (Char.ofNat (97 + i)) (Char.ofNat (65 + i))

theorem exists_of_mem_capitals (h : c ∈ capitals) : ∃ i : Fin 26, c = Char.ofNat (65 + i) := by
  obtain ⟨i, hi, rfl⟩ := List.mem_map.1 h
  exact ⟨⟨i, List.mem_range.1 hi⟩, rfl⟩

theorem toLower_capital (i : Fin 26) : (Char.ofNat (65 + i)).toLower = Char.ofNat (97 + i) := by
  revert i
  decide

theorem sameLetter_iff : SameLetter c d ↔ c.toLower = d.toLower := by
  constructor
  · rintro (_ | i | i)
    · rfl
    · revert i
      decide
    · revert i
      decide
  · intro h
    rcases toLower_eq_self_or_mem_capitals c with hc | hc
    · rcases toLower_eq_self_or_mem_capitals d with hd | hd
      · rw [hc, hd] at h
        exact h ▸ .same c
      · obtain ⟨i, rfl⟩ := exists_of_mem_capitals hd
        rw [hc, toLower_capital] at h
        exact h ▸ .large i
    · obtain ⟨i, rfl⟩ := exists_of_mem_capitals hc
      rcases toLower_eq_self_or_mem_capitals d with hd | hd
      · rw [hd, toLower_capital] at h
        exact h ▸ .small i
      · obtain ⟨j, rfl⟩ := exists_of_mem_capitals hd
        have hij : ∀ i j : Fin 26, (Char.ofNat (65 + i)).toLower = (Char.ofNat (65 + j)).toLower → i = j := by
          decide
        exact hij i j h ▸ .same _

/-- Two texts fold to one exactly if they have the same letters at the same places, in any case. -/
theorem foldCase_eq_foldCase_iff : foldCase v = foldCase w ↔ List.Forall₂ SameLetter v w := by
  have hletter : SameLetter = fun c d => c.toLower = d.toLower := by
    funext c d
    exact propext sameLetter_iff
  rw [hletter, foldCase, foldCase, ← List.forall₂_eq_eq_eq, List.forall₂_map_left_iff, List.forall₂_map_right_iff]

end Text

namespace CaseRule

variable {rule : CaseRule} {v w : Text}

/-- Two spellings of one word. -/
def Same : CaseRule → Text → Text → Prop
  | .sensitive, v, w => v = w
  | .insensitive, v, w => List.Forall₂ Text.SameLetter v w

theorem fold_eq_fold_iff : rule.fold v = rule.fold w ↔ rule.Same v w := by
  cases rule with
  | sensitive => rfl
  | insensitive =>
    rw [fold_insensitive, fold_insensitive]
    exact Text.foldCase_eq_foldCase_iff

/-- Folding changes capital letters of ASCII at most. -/
theorem getElem?_fold {i : Nat} {c : Char} (h : w[i]? = some c) (hc : c.isUpper = false) :
    (rule.fold w)[i]? = some c := by
  cases rule with
  | sensitive => exact h
  | insensitive =>
    rw [fold_insensitive, Text.foldCase, List.getElem?_map, h, Option.map_some, Text.toLower_of_not_isUpper hc]

/-- A word without capital letters of ASCII need not be folded. -/
theorem fold_eq_self (h : ∀ c ∈ w, c.isUpper = false) : rule.fold w = w := by
  cases rule with
  | sensitive => rfl
  | insensitive => rw [fold_insensitive, Text.foldCase_of_not_isUpper h]

end CaseRule

/-! ## Tables of entries -/

namespace WordTable

variable {α : Type} {rule : CaseRule} {entries : List (Text × α)} {table : WordTable α} {word x : Text} {value : α}

/-- The last entry for a word, in any spelling of it, has the value. -/
def IsLast (rule : CaseRule) (entries : List (Text × α)) (word : Text) (value : α) : Prop :=
  ∃ before key after, entries = before ++ (key, value) :: after ∧ rule.Same key word ∧
    ∀ e ∈ after, ¬ rule.Same e.1 word

theorem get?_ofList_eq_some_iff : (ofList rule entries).get? word = some value ↔ IsLast rule entries word value := by
  have hsame : ∀ e : Text × α, (rule.fold e.1 == rule.fold word) = true ↔ rule.Same e.1 word :=
    fun e => beq_iff_eq.trans CaseRule.fold_eq_fold_iff
  rw [get?_ofList, Option.map_eq_some_iff]
  constructor
  · rintro ⟨⟨key, _⟩, hfind, rfl⟩
    obtain ⟨hkey, after, before, hsplit, hafter⟩ := List.find?_eq_some_iff_append.1 hfind
    refine ⟨before.reverse, key, after.reverse, ?_, (hsame _).1 hkey, fun e he => ?_⟩
    · simpa using congrArg List.reverse hsplit
    · have hno := hafter e (List.mem_reverse.1 he)
      exact fun h => by simp [(hsame e).2 h] at hno
  · rintro ⟨before, key, after, rfl, hkey, hafter⟩
    refine ⟨(key, value), List.find?_eq_some_iff_append.2 ⟨(hsame _).2 hkey, ?_⟩, rfl⟩
    refine ⟨after.reverse, before.reverse, by simp, fun e he => ?_⟩
    have hno := hafter e (List.mem_reverse.1 he)
    rw [← hsame] at hno
    simpa using hno

theorem get?_ofList_eq_none_iff :
    (ofList rule entries).get? word = none ↔ ∀ e ∈ entries, ¬ rule.Same e.1 word := by
  rw [get?_ofList, Option.map_eq_none_iff, List.find?_eq_none]
  simp [← CaseRule.fold_eq_fold_iff]

theorem get?_congr {v w : Text} (h : table.rule.Same v w) : table.get? v = table.get? w := by
  rw [get?, get?, CaseRule.fold_eq_fold_iff.2 h]

/-! ## Stored words -/

theorem mem_words_ofList : x ∈ (ofList rule entries).entries.map (·.1) ↔ ∃ e ∈ entries, rule.fold e.1 = x := by
  induction entries using List.reverseRecOn with
  | nil => simp [ofList, empty]
  | append_singleton entries e ih =>
    have hput : (ofList rule (entries ++ [e])).entries =
        putEntry (rule.fold e.1) e.2 (ofList rule entries).entries := by
      rw [ofList, List.foldl_append, ← ofList]
      show putEntry ((ofList rule entries).rule.fold e.1) e.2 _ = _
      rw [rule_ofList]
    rw [hput, mem_keys_putEntry, ih]
    simp only [List.mem_append, List.mem_singleton, or_and_right, exists_or, exists_eq_left]
    rw [or_comm, eq_comm]

theorem get?_of_mem (hfold : ∀ e ∈ table.entries, table.rule.fold e.1 = e.1) {e : Text × α}
    (h : e ∈ table.entries) : table.get? e.1 = some e.2 :=
  (get?_eq_some_iff hfold).2 ⟨e, h, rfl, rfl⟩

/-- The words of entries, each as the set of its spellings. -/
def wordSets (rule : CaseRule) (entries : List (Text × α)) : Set (Set Text) :=
  {spellings | ∃ e ∈ entries, spellings = {word | rule.Same e.1 word}}

theorem wordSets_eq (rule : CaseRule) (entries : List (Text × α)) :
    wordSets rule entries =
      (fun x => {word | rule.fold word = x}) '' {x | x ∈ (ofList rule entries).entries.map (·.1)} := by
  have hspellings : ∀ key, {word | rule.Same key word} = {word | rule.fold word = rule.fold key} := by
    intro key
    ext word
    exact (CaseRule.fold_eq_fold_iff.symm).trans eq_comm
  ext spellings
  constructor
  · rintro ⟨e, he, rfl⟩
    exact ⟨rule.fold e.1, mem_words_ofList.2 ⟨e, he, rfl⟩, (hspellings e.1).symm⟩
  · rintro ⟨x, hx, rfl⟩
    obtain ⟨e, he, rfl⟩ := mem_words_ofList.1 hx
    exact ⟨e, he, (hspellings e.1).symm⟩

theorem size_ofList (rule : CaseRule) (entries : List (Text × α)) :
    (ofList rule entries).size = (wordSets rule entries).ncard := by
  -- a stored word is the folded form of its own spellings, so the sets of two stored words differ
  have hinj : Set.InjOn (fun x => {word | rule.fold word = x}) {x | x ∈ (ofList rule entries).entries.map (·.1)} := by
    intro x hx y _ hxy
    obtain ⟨e, -, rfl⟩ := mem_words_ofList.1 hx
    exact (Set.ext_iff.1 hxy e.1).1 rfl
  rw [wordSets_eq, hinj.ncard_image, ← List.coe_toFinset, Set.ncard_coe_finset,
    List.toFinset_card_of_nodup (ofList rule entries).distinct, List.length_map, size]

end WordTable

open WordTable in
/-- A word table is the dictionary of its entries. A word has the value of the last entry for it and no value if there
is none; a table has as many words as there are under the rule for case, and lists each of them once, in whatever
order, in folded form and with the value found for it. All spellings of a word are sought alike. Folding touches
capital letters of ASCII only, so a word without them is stored and sought as it is. -/
theorem dictionary_of_entries {α : Type} (rule : CaseRule) (entries : List (Text × α)) :
    let table := ofList rule entries
    (∀ word value, table.get? word = some value ↔ IsLast rule entries word value) ∧
    (∀ word, table.get? word = none ↔ ∀ e ∈ entries, ¬ rule.Same e.1 word) ∧
    (∀ word, table.contains word = true ↔ ∃ e ∈ entries, rule.Same e.1 word) ∧
    table.size = (wordSets rule entries).ncard ∧
    (∀ listed : List (Text × α), listed.Perm table.entries →
      (listed.map (·.1)).Nodup ∧ (∀ x, x ∈ listed.map (·.1) ↔ ∃ e ∈ entries, rule.fold e.1 = x) ∧
        ∀ e ∈ listed, table.get? e.1 = some e.2) ∧
    (∀ v w, rule.Same v w → table.get? v = table.get? w) ∧
    (∀ (word : Text) (i : Nat) (c : Char), word[i]? = some c → c.isUpper = false → (rule.fold word)[i]? = some c) ∧
    ∀ word : Text, (∀ c ∈ word, c.isUpper = false) → rule.fold word = word := by
  intro table
  have hrule : table.rule = rule := rule_ofList rule entries
  have hfold : ∀ e ∈ table.entries, table.rule.fold e.1 = e.1 := fun e he => hrule ▸ fold_eq_of_mem_ofList he
  refine ⟨fun word value => get?_ofList_eq_some_iff, fun word => get?_ofList_eq_none_iff, fun word => ?_,
    size_ofList rule entries, fun listed hperm => ⟨?_, fun x => ?_, fun e he => ?_⟩, fun v w h => ?_,
    fun word i c => CaseRule.getElem?_fold, fun word => CaseRule.fold_eq_self⟩
  · rw [contains, Option.isSome_iff_ne_none, Ne, get?_ofList_eq_none_iff]
    push Not
    rfl
  · exact (hperm.map (·.1)).nodup_iff.2 table.distinct
  · rw [(hperm.map (·.1)).mem_iff]
    exact mem_words_ofList
  · exact get?_of_mem hfold (hperm.mem_iff.1 he)
  · exact get?_congr (hrule ▸ h)

example :
    let table := WordTable.ofList .insensitive [("null".toList, 0), ("ÉTAT".toList, 1), ("NULL".toList, 2)]
    table.get? "Null".toList = some 2 ∧ table.get? "ÉtAt".toList = some 1 ∧ table.get? "éTAT".toList = none ∧
      table.size = 2 := by decide

end DoomLex
