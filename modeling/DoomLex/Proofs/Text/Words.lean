/-
Word tables read back what was put into them: a word has the value of the last entry that equals it, up to
the case of ASCII letters if the table ignores case. A table of reserved words alone so tells exactly the
words that are one of them in any case.
-/
import DoomLex.Grammar.Dialect
import DoomLex.Proofs.Text.Folding
import Mathlib.Data.List.Induction
import Mathlib.Tactic.SplitIfs

namespace DoomLex

theorem lookup_cons_eq {α : Type} (k x : Text) (v : α) (entries : List (Text × α)) :
    ((k, v) :: entries).lookup x = if k = x then some v else entries.lookup x := by
  rw [List.lookup_cons]
  by_cases hx : k = x
  · simp [hx]
  · have hne : (x == k) = false := beq_false_of_ne (Ne.symm hx)
    simp only [hne, if_neg hx]

theorem lookup_putEntry {α : Type} (key x : Text) (value : α) (entries : List (Text × α)) :
    (putEntry key value entries).lookup x = if key = x then some value else entries.lookup x := by
  induction entries with
  | nil => rw [putEntry, lookup_cons_eq]
  | cons e rest ih =>
    obtain ⟨k, v⟩ := e
    unfold putEntry
    by_cases hk : k = key
    · subst hk
      rw [if_pos rfl, lookup_cons_eq, lookup_cons_eq]
      split_ifs <;> rfl
    · rw [if_neg hk, lookup_cons_eq, lookup_cons_eq, ih]
      by_cases hx : k = x
      · -- the entry that stands first is that of another word
        have hkey : key ≠ x := fun h => hk (hx.trans h.symm)
        rw [if_pos hx, if_neg hkey, if_pos hx]
      · rw [if_neg hx, if_neg hx]

namespace WordTable

variable {α : Type}

theorem get?_put (table : WordTable α) (word x : Text) (value : α) :
    (table.put word value).get? x =
      if table.rule.fold word = table.rule.fold x then some value else table.get? x :=
  lookup_putEntry _ _ value table.entries

/-- Of several entries for a word the last one counts. -/
theorem get?_ofList (rule : CaseRule) (entries : List (Text × α)) (x : Text) :
    (ofList rule entries).get? x =
      (entries.reverse.find? fun e => rule.fold e.1 == rule.fold x).map (·.2) := by
  induction entries using List.reverseRecOn with
  | nil => rfl
  | append_singleton entries e ih =>
    have hput : ofList rule (entries ++ [e]) = (ofList rule entries).put e.1 e.2 := by
      simp [ofList]
    rw [hput, get?_put, rule_ofList, ih, List.reverse_concat, List.find?_cons]
    by_cases he : rule.fold e.1 = rule.fold x
    · simp [he]
    · simp [he, beq_false_of_ne he]

theorem fold_fold (rule : CaseRule) (x : Text) : rule.fold (rule.fold x) = rule.fold x := by
  cases rule with
  | sensitive => rfl
  | insensitive =>
    rw [CaseRule.fold_insensitive, CaseRule.fold_insensitive]
    exact Text.foldCase_foldCase x

theorem fold_eq_of_mem_ofList {rule : CaseRule} {entries : List (Text × α)} {e : Text × α}
    (h : e ∈ (ofList rule entries).entries) : rule.fold e.1 = e.1 := by
  have hkeys : ∀ x ∈ (ofList rule entries).entries.map (·.1), rule.fold x = x := by
    clear h
    induction entries using List.reverseRecOn with
    | nil => simp [ofList, empty]
    | append_singleton entries e ih =>
      have hput : ofList rule (entries ++ [e]) = (ofList rule entries).put e.1 e.2 := by
        simp [ofList]
      rw [hput]
      intro x hx
      rcases mem_keys_putEntry.1 hx with rfl | hx
      · rw [rule_ofList]
        exact fold_fold rule e.1
      · exact ih x hx
  exact hkeys e.1 (List.mem_map_of_mem h)

/-- Where words are stored in folded form, the value of a word stands in the one entry that equals it. -/
theorem get?_eq_some_iff {table : WordTable α} (hfolded : ∀ e ∈ table.entries, table.rule.fold e.1 = e.1)
    {word : Text} {value : α} :
    table.get? word = some value ↔
      ∃ e ∈ table.entries, table.rule.fold e.1 = table.rule.fold word ∧ e.2 = value := by
  rw [get?, List.lookup_eq_some_iff]
  constructor
  · rintro ⟨first, rest, hsplit, -⟩
    have he : (table.rule.fold word, value) ∈ table.entries := by simp [hsplit]
    exact ⟨_, he, hfolded _ he, rfl⟩
  · rintro ⟨⟨key, _⟩, he, hsame, rfl⟩
    obtain rfl : key = table.rule.fold word := (hfolded _ he).symm.trans hsame
    obtain ⟨first, rest, hsplit⟩ := List.append_of_mem he
    refine ⟨first, rest, hsplit, ?_⟩
    -- each word is stored once
    have hdistinct := table.distinct
    rw [hsplit, List.map_append, List.map_cons, List.nodup_append] at hdistinct
    intro p hp
    have hne := hdistinct.2.2 p.1 (List.mem_map_of_mem hp) _ List.mem_cons_self
    simpa using Ne.symm hne

end WordTable

/-! ## Reserved words -/

theorem mem_of_get?_wordsOf {reserved : List String} {constants : List (String × Kind)} {word : Text}
    {kind : Kind} (h : (wordsOf reserved constants).get? word = some kind) :
    (kind = .reservedWord ∧ ∃ name ∈ reserved, Text.sameFolded name.toList word = true) ∨
      ∃ e ∈ constants, e.2 = kind ∧ Text.sameFolded e.1.toList word = true := by
  rw [wordsOf, WordTable.get?_ofList] at h
  obtain ⟨e, he, rfl⟩ := Option.map_eq_some_iff.1 h
  have hsame : Text.foldCase e.1 = Text.foldCase word := by
    simpa [CaseRule.fold_insensitive] using List.find?_some he
  rcases List.mem_append.1 (List.mem_reverse.1 (List.mem_of_find?_eq_some he)) with hmem | hmem
  · obtain ⟨name, hname, rfl⟩ := List.mem_map.1 hmem
    exact .inl ⟨rfl, name, hname, Text.sameFolded_iff.2 hsame⟩
  · obtain ⟨constant, hconstant, rfl⟩ := List.mem_map.1 hmem
    exact .inr ⟨constant, hconstant, rfl, Text.sameFolded_iff.2 hsame⟩

/-- A table of reserved words alone knows exactly those words, in any case. -/
theorem get?_wordsOf_nil (reserved : List String) (word : Text) :
    (wordsOf reserved []).get? word =
      if reserved.any (fun name => Text.sameFolded name.toList word) then some .reservedWord else none := by
  cases hget : (wordsOf reserved []).get? word with
  | some kind =>
    rcases mem_of_get?_wordsOf hget with ⟨rfl, name, hname, hsame⟩ | ⟨e, he, -⟩
    · rw [if_pos (List.any_eq_true.2 ⟨name, hname, hsame⟩)]
    · exact absurd he List.not_mem_nil
  | none =>
    rw [wordsOf, WordTable.get?_ofList, Option.map_eq_none_iff, List.find?_eq_none] at hget
    rw [if_neg]
    intro hany
    obtain ⟨name, hname, hsame⟩ := List.any_eq_true.1 hany
    refine hget (name.toList, .reservedWord) ?_ ?_
    · rw [List.mem_reverse, List.map_nil, List.append_nil]
      exact List.mem_map.2 ⟨name, hname, rfl⟩
    · simpa [CaseRule.fold_insensitive] using Text.sameFolded_iff.1 hsame

end DoomLex
