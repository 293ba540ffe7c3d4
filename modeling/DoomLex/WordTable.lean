/-
Word tables: dictionaries from words to what they stand for. A table either tells apart the case of
ASCII letters or not; in the second case words are stored and looked up in folded form. Of several
entries for one word the last one counts.
-/
import DoomLex.Text.Case
import DoomLex.Text.Order

namespace DoomLex

/-- Whether the case of ASCII letters tells words apart. -/
inductive CaseRule where
  | sensitive
  | insensitive
deriving DecidableEq, Repr

/-- The form in which a word is stored and looked up. Only a word with capital letters is folded. -/
def CaseRule.fold : CaseRule → Text → Text
  | .sensitive, word => word
  | .insensitive, word => if word.any Char.isUpper then Text.foldCase word else word

/-- Writes a value under a key: in place of the value there, else at the end. -/
def putEntry {α : Type} (key : Text) (value : α) : List (Text × α) → List (Text × α)
  | [] => [(key, value)]
  | (k, v) :: rest => if k = key then (k, value) :: rest else (k, v) :: putEntry key value rest

theorem mem_keys_putEntry {α : Type} {key x : Text} {value : α} {entries : List (Text × α)} :
    x ∈ (putEntry key value entries).map (·.1) ↔ x = key ∨ x ∈ entries.map (·.1) := by
  induction entries with
  | nil => simp [putEntry]
  | cons e rest ih =>
    obtain ⟨k, v⟩ := e
    unfold putEntry
    split
    · rename_i h; subst h; simp
    · simp only [List.map_cons, List.mem_cons, ih]
      constructor
      · rintro (h | h | h) <;> simp [h]
      · rintro (h | h | h) <;> simp [h]

theorem nodup_putEntry {α : Type} {key : Text} {value : α} {entries : List (Text × α)}
    (h : (entries.map (·.1)).Nodup) : ((putEntry key value entries).map (·.1)).Nodup := by
  induction entries with
  | nil => simp [putEntry]
  | cons e rest ih =>
    obtain ⟨k, v⟩ := e
    simp only [List.map_cons, List.nodup_cons] at h
    unfold putEntry
    split
    · simpa using h
    · rename_i hne
      simp only [List.map_cons, List.nodup_cons]
      refine ⟨fun hmem => ?_, ih h.2⟩
      rcases mem_keys_putEntry.1 hmem with rfl | hmem
      · exact hne rfl
      · exact h.1 hmem

/-- A dictionary from folded words to values, each word once. -/
structure WordTable (α : Type) where
  rule : CaseRule
  entries : List (Text × α)
  distinct : (entries.map (·.1)).Nodup

namespace WordTable

variable {α : Type}

/-- The table without words. -/
def empty (rule : CaseRule) : WordTable α where
  rule := rule
  entries := []
  distinct := List.nodup_nil

/-- Gives a word its value, in place of an earlier one. -/
def put (table : WordTable α) (word : Text) (value : α) : WordTable α where
  rule := table.rule
  entries := putEntry (table.rule.fold word) value table.entries
  distinct := nodup_putEntry table.distinct

/-- The table of a list of entries, of which the last one for a word counts. -/
def ofList (rule : CaseRule) (entries : List (Text × α)) : WordTable α :=
  entries.foldl (fun table e => table.put e.1 e.2) (empty rule)

/-- The value of a word. -/
def get? (table : WordTable α) (word : Text) : Option α :=
  table.entries.lookup (table.rule.fold word)

/-- Whether a word has a value. -/
def contains (table : WordTable α) (word : Text) : Bool := (table.get? word).isSome

/-- The number of words. -/
def size (table : WordTable α) : Nat := table.entries.length

/-- Whether there is no word. -/
def isEmpty (table : WordTable α) : Bool := table.entries.isEmpty

/-- The entries in the order of their words. -/
def sorted (table : WordTable α) : List (Text × α) :=
  table.entries.mergeSort fun a b => !b.1.precedes a.1

end WordTable

end DoomLex
