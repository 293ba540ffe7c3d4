/-
The order of paths is a total order on their components, so paths of different spellings stand at the same place
of it exactly if they are the same. Putting paths in order and dropping each one that is the same as the one kept
before it therefore gives a list that strictly ascends, holds every path in one of its spellings, and is settled
by what paths there are: any two such lists agree path by path.
-/
import DoomLex.Tool.Inputs
import Mathlib.Data.List.Forall2
import Mathlib.Data.List.Sort

namespace DoomLex

/-! ## Components -/

namespace Component

theorem compare_name_eq_lt {m n : Text} : (name m).compare (name n) = .lt ↔ m.precedes n = true := by
  simp only [compare]
  cases m.precedes n <;> cases n.precedes m <;> simp

theorem compare_name_eq_eq {m n : Text} : (name m).compare (name n) = .eq ↔ m = n := by
  simp only [compare]
  constructor
  · intro h
    split at h
    · cases h
    · split at h
      · cases h
      · exact Text.eq_of_not_precedes (by simp_all) (by simp_all)
  · rintro rfl
    simp [Text.precedes_self]

theorem compare_name_swap (m n : Text) : (name m).compare (name n) = ((name n).compare (name m)).swap := by
  have hasymm : ¬ (m.precedes n = true ∧ n.precedes m = true) := by
    rintro ⟨h₁, h₂⟩
    have := Text.precedes_trans h₁ h₂
    rw [Text.precedes_self] at this
    cases this
  simp only [compare]
  cases h₁ : m.precedes n <;> cases h₂ : n.precedes m <;> simp_all

instance : Std.OrientedCmp Component.compare where
  eq_swap {a b} := by
    cases a <;> cases b <;> first | rfl | exact compare_name_swap ..

theorem rank_le_of_isLE {a b : Component} (h : (a.compare b).isLE = true) : a.rank ≤ b.rank := by
  cases a <;> cases b <;> simp [compare, rank, Nat.compare_eq_ite_lt] at h ⊢

/-- Only two names are not compared by their ranks. -/
theorem isLE_of_rank_le {a b : Component} (hnames : ∀ m n, a = name m → b ≠ name n) (h : a.rank ≤ b.rank) :
    (a.compare b).isLE = true := by
  have hcompare : a.compare b = Ord.compare a.rank b.rank := by
    cases a <;> cases b <;> first | rfl | exact absurd rfl (hnames _ _ rfl)
  rw [hcompare, Nat.isLE_compare]
  exact h

theorem exists_name_of_rank {a : Component} (h : 3 ≤ a.rank) : ∃ n, a = name n := by
  cases a with
  | name n => exact ⟨n, rfl⟩
  | root | current | parent => exact absurd h (by decide)

instance : Std.TransCmp Component.compare where
  isLE_trans {a b c} h₁ h₂ := by
    have hab := rank_le_of_isLE h₁
    have hbc := rank_le_of_isLE h₂
    by_cases hnames : ∃ m n, a = name m ∧ c = name n
    · obtain ⟨l, n, rfl, rfl⟩ := hnames
      -- what stands between two names is a name
      obtain ⟨m, rfl⟩ := exists_name_of_rank hab
      rw [Ordering.isLE_iff_eq_lt_or_eq_eq, compare_name_eq_lt, compare_name_eq_eq] at h₁ h₂ ⊢
      rcases h₁ with h₁ | rfl
      · rcases h₂ with h₂ | rfl
        · exact .inl (Text.precedes_trans h₁ h₂)
        · exact .inl h₁
      · exact h₂
    · exact isLE_of_rank_le (fun m n ha hc => hnames ⟨m, n, ha, hc⟩) (Nat.le_trans hab hbc)

instance : Std.LawfulEqCmp Component.compare where
  eq_of_compare {a b} h := by
    cases a <;> cases b <;> first | rfl | cases h | skip
    rw [compare_name_eq_eq.1 h]

end Component

/-! ## Paths -/

namespace Path

variable {p q : Path} {paths paths' : List Path}

theorem compareComponents_eq (as bs : List Component) :
    compareComponents as bs = List.compareLex Component.compare as bs := by
  induction as generalizing bs with
  | nil => cases bs <;> rfl
  | cons a as ih =>
    cases bs with
    | nil => rfl
    | cons b bs => rw [compareComponents, List.compareLex_cons_cons, ih]

instance : Std.TransCmp compareComponents := by
  have h : compareComponents = List.compareLex Component.compare := funext₂ compareComponents_eq
  rw [h]
  infer_instance

instance : Std.LawfulEqCmp compareComponents := by
  have h : compareComponents = List.compareLex Component.compare := funext₂ compareComponents_eq
  rw [h]
  infer_instance

instance : Std.TransCmp Path.compare where
  eq_swap {p q} :=
    have h : compareComponents p.components q.components = _ := Std.OrientedCmp.eq_swap
    h
  isLE_trans {p _ r} h₁ h₂ :=
    have h : (compareComponents p.components r.components).isLE = true := Std.TransCmp.isLE_trans h₁ h₂
    h

theorem same_iff : p.same q = true ↔ p.components = q.components := beq_iff_eq

theorem compare_eq_eq_iff : p.compare q = .eq ↔ p.same q = true := by
  have h : compareComponents p.components q.components = .eq ↔ _ := Std.LawfulEqCmp.compare_eq_iff_eq
  rw [same_iff, ← h]
  rfl

theorem same_self (p : Path) : p.same p = true := same_iff.2 rfl

theorem same_comm : p.same q = q.same p := Bool.beq_comm

theorem le_iff : p.le q = true ↔ (p.compare q).isLE = true := by
  rw [le]
  cases p.compare q <;> decide

theorem le_trans {r : Path} (h₁ : p.le q = true) (h₂ : q.le r = true) : p.le r = true :=
  le_iff.2 (Std.TransCmp.isLE_trans (le_iff.1 h₁) (le_iff.1 h₂))

theorem le_total (p q : Path) : (p.le q || q.le p) = true := by
  have hswap : q.compare p = (p.compare q).swap := Std.OrientedCmp.eq_swap
  rw [Bool.or_eq_true, le_iff, le_iff, hswap]
  cases p.compare q <;> decide

theorem same_of_le (hpq : p.le q = true) (hqp : q.le p = true) : p.same q = true := by
  have hswap : q.compare p = (p.compare q).swap := Std.OrientedCmp.eq_swap
  rw [le_iff] at hpq hqp
  rw [hswap] at hqp
  rw [← compare_eq_eq_iff]
  cases hcompare : p.compare q <;> simp_all

theorem compare_eq_lt_of_le (h : p.le q = true) (hsame : p.same q = false) : p.compare q = .lt := by
  have hne : p.compare q ≠ .eq := fun heq => by
    rw [compare_eq_eq_iff, hsame] at heq
    cases heq
  rw [le] at h
  cases hcompare : p.compare q <;> simp_all

/-! ## Dropping repeats -/

/-- Paths that strictly ascend. -/
def Ascending (paths : List Path) : Prop := paths.Pairwise fun p q => p.compare q = .lt

theorem mem_of_mem_dropRepeats (h : q ∈ dropRepeats p paths) : q ∈ paths := by
  induction paths generalizing p with
  | nil => exact h
  | cons r rest ih =>
    rw [dropRepeats] at h
    split at h
    · exact List.mem_cons_of_mem r (ih h)
    · rcases List.mem_cons.1 h with rfl | h
      · exact List.mem_cons_self
      · exact List.mem_cons_of_mem r (ih h)

/-- A path that is dropped is the same as one that stays. -/
theorem exists_same_of_mem_dropRepeats (h : q ∈ paths) : ∃ r ∈ p :: dropRepeats p paths, r.same q = true := by
  induction paths generalizing p with
  | nil => cases h
  | cons r rest ih =>
    rw [dropRepeats]
    split
    · rename_i hsame
      rcases List.mem_cons.1 h with rfl | h
      · exact ⟨p, List.mem_cons_self, hsame⟩
      · exact ih h
    · rcases List.mem_cons.1 h with rfl | h
      · exact ⟨q, List.mem_cons_of_mem p List.mem_cons_self, same_self q⟩
      · obtain ⟨r', hr', hsame⟩ := ih (p := r) h
        exact ⟨r', List.mem_cons_of_mem p hr', hsame⟩

theorem ascending_dropRepeats (h : (p :: paths).Pairwise fun p q => p.le q = true) :
    Ascending (p :: dropRepeats p paths) := by
  induction paths generalizing p with
  | nil => exact List.pairwise_singleton _ p
  | cons q rest ih =>
    obtain ⟨hp, hrest⟩ := List.pairwise_cons.1 h
    rw [dropRepeats]
    split
    · exact ih (List.pairwise_cons.2 ⟨fun r hr => hp r (List.mem_cons_of_mem q hr), hrest.of_cons⟩)
    · rename_i hsame
      have hlt := compare_eq_lt_of_le (hp q List.mem_cons_self) (by simpa using hsame)
      have hq := ih hrest
      refine List.pairwise_cons.2 ⟨fun r hr => ?_, hq⟩
      rcases List.mem_cons.1 hr with rfl | hr
      · exact hlt
      · exact Std.TransCmp.lt_trans hlt ((List.pairwise_cons.1 hq).1 r hr)

theorem dropRepeats_of_ascending (h : Ascending (p :: paths)) : dropRepeats p paths = paths := by
  induction paths generalizing p with
  | nil => rfl
  | cons q rest ih =>
    obtain ⟨hp, hrest⟩ := List.pairwise_cons.1 h
    have hdiffer : ¬ p.same q = true := by
      rw [← compare_eq_eq_iff, hp q List.mem_cons_self]
      decide
    rw [dropRepeats, if_neg hdiffer, ih hrest]

/-! ## Paths in order -/

theorem Ascending.le (h : Ascending paths) : paths.Pairwise fun p q => p.le q = true :=
  h.imp fun hlt => by rw [Path.le, hlt]; rfl

theorem Ascending.differ (h : Ascending paths) : paths.Pairwise fun p q => p.same q = false :=
  h.imp fun {p q} hlt => by
    rw [← Bool.not_eq_true, ← compare_eq_eq_iff, hlt]
    decide

theorem ascending_arrange (paths : List Path) : Ascending (arrange paths) := by
  have htrans : ∀ p q r : Path, p.le q = true → q.le r = true → p.le r = true := fun _ _ _ => le_trans
  have hsorted := List.pairwise_mergeSort htrans le_total paths
  unfold arrange
  cases hpaths : paths.mergeSort le with
  | nil => exact List.Pairwise.nil
  | cons p rest =>
    rw [hpaths] at hsorted
    exact ascending_dropRepeats hsorted

theorem mem_of_mem_arrange (h : p ∈ arrange paths) : p ∈ paths := by
  refine List.mem_mergeSort.1 (?_ : p ∈ paths.mergeSort le)
  unfold arrange at h
  cases hpaths : paths.mergeSort le with
  | nil => simp [hpaths] at h
  | cons q rest =>
    rw [hpaths] at h
    rcases List.mem_cons.1 h with rfl | h
    · exact List.mem_cons_self
    · exact List.mem_cons_of_mem q (mem_of_mem_dropRepeats h)

/-- Of each path one spelling stays. -/
theorem exists_same_mem_arrange (h : p ∈ paths) : ∃ q ∈ arrange paths, q.same p = true := by
  have hmem : p ∈ paths.mergeSort le := List.mem_mergeSort.2 h
  unfold arrange
  cases hpaths : paths.mergeSort le with
  | nil =>
    rw [hpaths] at hmem
    cases hmem
  | cons q rest =>
    rw [hpaths] at hmem
    rcases List.mem_cons.1 hmem with rfl | hmem
    · exact ⟨p, List.mem_cons_self, same_self p⟩
    · exact exists_same_of_mem_dropRepeats hmem

/-- Paths in any order are arranged in the one order in which they ascend. -/
theorem arrange_of_perm (hperm : paths.Perm paths') (h : Ascending paths') : arrange paths = paths' := by
  have hsame : ∀ p ∈ paths', ∀ q ∈ paths', p.same q = true → p = q := by
    refine List.Pairwise.forall_of_forall_of_flip (fun _ _ _ => rfl) (h.differ.imp ?_) (h.differ.imp ?_)
    · exact fun hdiffer hsame => absurd (hsame.symm.trans hdiffer) (by decide)
    · exact fun hdiffer hsame => absurd ((same_comm.trans hsame).symm.trans hdiffer) (by decide)
  have hsort : paths.mergeSort le = paths' := by
    have htrans : ∀ p q r : Path, p.le q = true → q.le r = true → p.le r = true := fun _ _ _ => le_trans
    have hmem := (List.mergeSort_perm paths le).trans hperm
    have hsorted := List.pairwise_mergeSort htrans le_total paths
    exact List.Perm.eq_of_pairwise
      (fun p q hp hq hpq hqp => hsame p (hmem.mem_iff.1 hp) q hq (same_of_le hpq hqp)) hsorted h.le hmem
  rw [arrange, hsort]
  cases paths' with
  | nil => rfl
  | cons p rest => exact congrArg (p :: ·) (dropRepeats_of_ascending h)

/-- Paths that ascend are arranged already. -/
theorem arrange_of_ascending (h : Ascending paths) : arrange paths = paths := arrange_of_perm (.refl paths) h

example : arrange (["b", "a//b", "./a", "a/./b", "/a", "b/"].map ofString) =
    ["/a", "./a", "a//b", "b"].map ofString := by cbv

theorem pairwise_components (h : Ascending paths) :
    (paths.map components).Pairwise fun as bs => compareComponents as bs = .lt :=
  List.pairwise_map.2 h

/-- Ascending lists that hold the same paths agree path by path. -/
theorem forall₂_same_of_ascending (h : Ascending paths) (h' : Ascending paths')
    (hle : ∀ p ∈ paths, ∃ q ∈ paths', q.same p = true) (hge : ∀ q ∈ paths', ∃ p ∈ paths, p.same q = true) :
    List.Forall₂ (fun p q => p.same q = true) paths paths' := by
  let lt (as bs : List Component) : Prop := compareComponents as bs = .lt
  have : Std.Irrefl lt := ⟨fun as hlt => by
    have heq : compareComponents as as = .eq := Std.ReflCmp.compare_self
    exact absurd (hlt.symm.trans heq) (by decide)⟩
  have : Std.Antisymm lt := ⟨fun as bs hlt hgt => absurd hgt (Std.OrientedCmp.not_lt_of_lt hlt)⟩
  have hmap : paths.map components = paths'.map components := by
    refine (pairwise_components h).eq_of_mem_iff (pairwise_components h') fun as => ?_
    rw [List.mem_map, List.mem_map]
    constructor
    · rintro ⟨p, hp, rfl⟩
      obtain ⟨q, hq, hsame⟩ := hle p hp
      exact ⟨q, hq, same_iff.1 hsame⟩
    · rintro ⟨q, hq, rfl⟩
      obtain ⟨p, hp, hsame⟩ := hge q hq
      exact ⟨p, hp, same_iff.1 hsame⟩
  have hforall : List.Forall₂ (fun as bs => as = bs) (paths.map components) (paths'.map components) := by
    rw [hmap]
    exact List.forall₂_refl _
  rw [List.forall₂_map_left_iff, List.forall₂_map_right_iff] at hforall
  exact hforall.imp fun p q => same_iff.2

end Path

end DoomLex
