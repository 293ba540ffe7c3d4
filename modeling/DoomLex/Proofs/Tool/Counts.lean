/-
What counting kinds one by one comes to: each kind that occurs stands once in the counts, in the order of
first occurrences, with the number of its occurrences. The induction takes tokens off the end, where the
count of one more token either raises an entry that is there or puts a new one behind the others.
-/
import DoomLex.Tool.Tally
import Mathlib.Data.List.Count
import Mathlib.Data.List.Induction

namespace DoomLex

/-! ## First occurrences -/

section FirstOccurrences

variable {α β : Type} [BEq α] [LawfulBEq α] [BEq β] [LawfulBEq β]

theorem eraseDups_concat_of_mem {xs : List α} {a : α} (h : a ∈ xs) :
    (xs ++ [a]).eraseDups = xs.eraseDups := by
  have hrest : [a].removeAll xs = [] := by simp [List.removeAll, h]
  rw [List.eraseDups_append, hrest, List.eraseDups_nil, List.append_nil]

theorem eraseDups_concat_of_not_mem {xs : List α} {a : α} (h : a ∉ xs) :
    (xs ++ [a]).eraseDups = xs.eraseDups ++ [a] := by
  have hrest : [a].removeAll xs = [a] := by simp [List.removeAll, h]
  rw [List.eraseDups_append, hrest]
  rfl

theorem nodup_eraseDups (xs : List α) : xs.eraseDups.Nodup := by
  induction xs using List.reverseRecOn with
  | nil => exact List.nodup_nil
  | append_singleton xs a ih =>
    by_cases h : a ∈ xs
    · rwa [eraseDups_concat_of_mem h]
    · rw [eraseDups_concat_of_not_mem h, List.nodup_append]
      refine ⟨ih, List.pairwise_singleton _ a, ?_⟩
      rintro b hb c hc rfl
      rw [List.mem_singleton.1 hc] at hb
      exact h (List.mem_eraseDups.1 hb)

theorem eraseDups_map {f : α → β} (hf : Function.Injective f) (xs : List α) :
    (xs.map f).eraseDups = xs.eraseDups.map f := by
  induction xs using List.reverseRecOn with
  | nil => rfl
  | append_singleton xs a ih =>
    have hmem : f a ∈ xs.map f ↔ a ∈ xs := by
      constructor
      · intro h
        obtain ⟨b, hb, heq⟩ := List.mem_map.1 h
        rwa [← hf heq]
      · exact List.mem_map_of_mem
    rw [List.map_append, List.map_singleton]
    by_cases h : a ∈ xs
    · rw [eraseDups_concat_of_mem h, eraseDups_concat_of_mem (hmem.2 h), ih]
    · rw [eraseDups_concat_of_not_mem h, eraseDups_concat_of_not_mem (fun h' => h (hmem.1 h')), ih,
        List.map_append, List.map_singleton]

end FirstOccurrences

/-! ## Names of kinds -/

namespace Kind

theorem find?_name (k : Kind) : (Language.all.flatMap Language.kinds).find? (·.name == k.name) = some k := by
  cases k <;> rfl

theorem name_injective : Function.Injective name := by
  intro k k' h
  have hk := find?_name k
  rw [h, find?_name] at hk
  exact (Option.some.inj hk).symm

end Kind

/-! ## Counts -/

namespace Tally

theorem countKinds_concat (tokens : List Token) (t : Token) :
    countKinds (tokens ++ [t]) = count t.kind (countKinds tokens) := by
  rw [countKinds, countKinds, List.foldl_append, List.foldl_cons, List.foldl_nil]

theorem count_of_not_mem {k : Kind} {counts : List (Kind × Nat)} (h : k ∉ counts.map (·.1)) :
    count k counts = counts ++ [(k, 1)] := by
  induction counts with
  | nil => rfl
  | cons e counts ih =>
    rw [List.map_cons, List.mem_cons, not_or] at h
    rw [count, if_neg (fun he => h.1 he.symm), ih h.2, List.cons_append]

theorem count_of_mem {k : Kind} {counts : List (Kind × Nat)} (hnodup : (counts.map (·.1)).Nodup)
    (h : k ∈ counts.map (·.1)) :
    count k counts = counts.map fun e => if e.1 = k then (e.1, e.2 + 1) else e := by
  induction counts with
  | nil => cases h
  | cons e counts ih =>
    rw [List.map_cons, List.nodup_cons] at hnodup
    rw [List.map_cons, List.mem_cons] at h
    rw [count, List.map_cons]
    by_cases he : e.1 = k
    · -- the kind stands in no other entry
      have hrest : counts.map (fun e => if e.1 = k then (e.1, e.2 + 1) else e) = counts := by
        conv_rhs => rw [← List.map_id counts]
        refine List.map_congr_left fun e' he' => if_neg ?_
        rintro rfl
        exact hnodup.1 (he ▸ List.mem_map_of_mem he')
      rw [if_pos he, if_pos he, hrest]
    · rw [if_neg he, if_neg he, ih hnodup.2 (h.resolve_left fun heq => he heq.symm)]

theorem countKinds_eq (tokens : List Token) :
    countKinds tokens =
      (tokens.map (·.kind)).eraseDups.map fun k => (k, (tokens.map (·.kind)).count k) := by
  induction tokens using List.reverseRecOn with
  | nil => rfl
  | append_singleton tokens t ih =>
    have hkeys : (countKinds tokens).map (·.1) = (tokens.map (·.kind)).eraseDups := by
      rw [ih, List.map_map]
      exact List.map_id _
    have hmem : t.kind ∈ (countKinds tokens).map (·.1) ↔ t.kind ∈ tokens.map (·.kind) := by
      rw [hkeys, List.mem_eraseDups]
    rw [countKinds_concat, List.map_append, List.map_singleton]
    by_cases h : t.kind ∈ tokens.map (·.kind)
    · have hnodup : ((countKinds tokens).map (·.1)).Nodup := hkeys ▸ nodup_eraseDups _
      rw [count_of_mem hnodup (hmem.2 h), ih, List.map_map, eraseDups_concat_of_mem h]
      refine List.map_congr_left fun k _ => ?_
      rw [Function.comp_apply, List.count_append, List.count_singleton]
      by_cases hk : k = t.kind
      · simp [hk]
      · simp [hk, Ne.symm hk]
    · rw [count_of_not_mem (fun h' => h (hmem.1 h')), ih, eraseDups_concat_of_not_mem h, List.map_append,
        List.map_singleton]
      have hone : (tokens.map (·.kind) ++ [t.kind]).count t.kind = 1 := by
        rw [List.count_append, List.count_eq_zero.2 h, List.count_singleton_self]
      rw [hone]
      refine congrArg (· ++ _) (List.map_congr_left fun k hk => ?_)
      -- the kinds before are others
      have hne : t.kind ≠ k := fun heq => h (heq ▸ List.mem_eraseDups.1 hk)
      rw [List.count_append, List.count_singleton, if_neg (by simpa using hne), Nat.add_zero]

theorem total_count (k : Kind) (counts : List (Kind × Nat)) :
    total (·.2) (count k counts) = total (·.2) counts + 1 := by
  induction counts with
  | nil => rfl
  | cons e counts ih =>
    rw [count]
    split
    · rw [total_cons, total_cons, Nat.add_right_comm]
    · rw [total_cons, total_cons, ih, Nat.add_assoc]

theorem total_countKinds (tokens : List Token) : total (·.2) (countKinds tokens) = tokens.length := by
  induction tokens using List.reverseRecOn with
  | nil => rfl
  | append_singleton tokens t ih =>
    rw [countKinds_concat, total_count, ih, List.length_append, List.length_singleton]

/-! ## Counts by name -/

/-- The counts list each name that occurs once, in the order of first occurrences, with the number of its
occurrences. -/
theorem names_countKinds (tokens : List Token) :
    (countKinds tokens).map (fun e => (e.1.name, e.2)) =
      (tokens.map (·.kind.name)).eraseDups.map fun n => (n, (tokens.map (·.kind.name)).count n) := by
  have hnames : tokens.map (·.kind.name) = (tokens.map (·.kind)).map Kind.name := by
    rw [List.map_map]
    rfl
  rw [countKinds_eq, hnames, eraseDups_map Kind.name_injective, List.map_map, List.map_map]
  refine List.map_congr_left fun k _ => ?_
  rw [Function.comp_apply, Function.comp_apply, List.count_map_of_injective _ _ Kind.name_injective]

end Tally

end DoomLex
