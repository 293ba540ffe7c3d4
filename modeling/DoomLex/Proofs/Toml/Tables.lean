/-
Tables filled by statements. What goes to a table changes that table alone, and pairs with keys of their own come to
stand in it in the order of the statements.
-/
import DoomLex.Toml.Basic

namespace DoomLex.Toml

variable {key : Text} {value : Toml} {entries : Entries} {current : List Text} {rest : List Statement}

/-! ## Entries -/

theorem lookup_eq_none_of_notMem (h : key ∉ entries.map Prod.fst) : entries.lookup key = none := by
  rw [List.lookup_eq_none_iff]
  intro e he
  rw [bne_iff_ne]
  rintro rfl
  exact h (List.mem_map_of_mem he)

theorem setEntry_of_notMem (h : key ∉ entries.map Prod.fst) (value : Toml) :
    setEntry key value entries = entries ++ [(key, value)] := by
  induction entries with
  | nil => rfl
  | cons e entries ih =>
    rw [List.map_cons, List.mem_cons, not_or] at h
    rw [setEntry, if_neg (Ne.symm h.1), ih h.2, List.cons_append]

theorem addPair_of_notMem (h : key ∉ entries.map Prod.fst) (value : Toml) :
    addPair value [key] true entries = some (entries ++ [(key, value)]) := by
  simp [addPair, lookup_eq_none_of_notMem h, setEntry_of_notMem h]

/-! ## Tables in tables -/

/-- What stands around the table at a path: a change of the table changes nothing else. -/
def Surrounds (path : List Text) (around : Entries → Entries) : Prop :=
  ∀ change inner, within change path (around inner) = (change inner).map around

theorem surrounds_root : Surrounds [] id := fun change inner => by
  rw [id, within, Option.map_id, id]

theorem lookup_append_singleton (h : key ∉ entries.map Prod.fst) (value : Toml) :
    (entries ++ [(key, value)]).lookup key = some value := by
  rw [List.lookup_append, lookup_eq_none_of_notMem h, Option.none_or, List.lookup_cons_self]

theorem setEntry_append_singleton (h : key ∉ entries.map Prod.fst) (old value : Toml) :
    setEntry key value (entries ++ [(key, old)]) = entries ++ [(key, value)] := by
  induction entries with
  | nil => simp [setEntry]
  | cons e entries ih =>
    rw [List.map_cons, List.mem_cons, not_or] at h
    rw [List.cons_append, setEntry, if_neg (Ne.symm h.1), ih h.2, List.cons_append]

/-- The last table of a table, where no braces wrote it. -/
theorem Surrounds.table {path : List Text} {around : Entries → Entries} (h : Surrounds path around)
    (hkey : key ∉ entries.map Prod.fst) {origin : TableOrigin} (horigin : origin ≠ .braced) :
    Surrounds (key :: path) fun inner => entries ++ [(key, .table origin (around inner))] := fun change inner => by
  rw [within, lookup_append_singleton hkey]
  cases origin with
  | braced => exact absurd rfl horigin
  | implied | dotted | headed =>
    simp only [h change inner, Option.map_map, setEntry_append_singleton hkey, Function.comp_def]

/-! ## Pairs -/

/-- A pair for each entry of a table. -/
def pairs (entries : Entries) : List Statement := entries.map fun e => .pair [e.1] e.2

/-- Pairs with keys of their own add up in the table that they go to; `around` is the root table around it. -/
theorem fill_pairs {around : Entries → Entries} (haround : Surrounds current around)
    (inner : Entries) {added : Entries} (hnodup : ((inner ++ added).map Prod.fst).Nodup) :
    fill current (around inner) (pairs added ++ rest) = fill current (around (inner ++ added)) rest := by
  induction added generalizing inner with
  | nil => rw [List.append_nil]; rfl
  | cons e added ih =>
    have hsplit : inner ++ e :: added = inner ++ [e] ++ added := by simp
    have hnew : e.1 ∉ inner.map Prod.fst := by
      rw [List.map_append, List.nodup_append] at hnodup
      exact fun hmem => hnodup.2.2 _ hmem _ List.mem_cons_self rfl
    have hstep : within (addPair e.2 [e.1] true) current (around inner) = some (around (inner ++ [e])) := by
      rw [haround, addPair_of_notMem hnew, Option.map_some]
    rw [hsplit] at hnodup ⊢
    have hpairs : pairs (e :: added) ++ rest = .pair [e.1] e.2 :: (pairs added ++ rest) := rfl
    rw [← ih (inner ++ [e]) hnodup, hpairs, fill, hstep]

theorem openTable_of_notMem (hkey : key ∉ entries.map Prod.fst) :
    openTable key entries = some (entries ++ [(key, .table .headed [])]) := by
  rw [openTable, lookup_eq_none_of_notMem hkey]
  exact congrArg some (setEntry_of_notMem hkey _)

theorem fill_header {path : List Text} {root opened : Entries} (h : within (openTable key) path root = some opened) :
    fill current root (.header (path ++ [key]) :: rest) = fill (path ++ [key]) opened rest := by
  rw [fill, List.getLast?_concat]
  simp only [List.dropLast_concat, h]

/-- A header of a table that is not there yet, and the pairs that go to it. -/
theorem fill_section {root added : Entries} (hkey : key ∉ root.map Prod.fst) (hnodup : (added.map Prod.fst).Nodup) :
    fill current root (.header [key] :: (pairs added ++ rest)) =
      fill [key] (root ++ [(key, .table .headed added)]) rest := by
  have htable : Surrounds [key] fun inner => root ++ [(key, .table .headed (id inner))] :=
    surrounds_root.table hkey (by decide)
  have hopen : within (openTable key) [] root = some (root ++ [(key, .table .headed [])]) :=
    openTable_of_notMem hkey
  exact (fill_header hopen).trans (fill_pairs htable [] hnodup)

/-- The same for a table within the last table of the root, or within one that its header brings about. -/
theorem fill_subsection {outer : Text} {base root inner added : Entries} {origin : TableOrigin}
    (houter : outer ∉ root.map Prod.fst) (hkey : key ∉ inner.map Prod.fst) (horigin : origin ≠ .braced)
    (hopen : within (openTable key) [outer] base =
      some (root ++ [(outer, .table origin (inner ++ [(key, .table .headed [])]))]))
    (hnodup : (added.map Prod.fst).Nodup) :
    fill current base (.header [outer, key] :: (pairs added ++ rest)) =
      fill [outer, key] (root ++ [(outer, .table origin (inner ++ [(key, .table .headed added)]))]) rest := by
  have htable : Surrounds [outer, key] fun added =>
      root ++ [(outer, .table origin (inner ++ [(key, .table .headed (id added))]))] :=
    (surrounds_root.table hkey (by decide)).table houter horigin
  exact (fill_header hopen).trans (fill_pairs htable [] hnodup)

end DoomLex.Toml
