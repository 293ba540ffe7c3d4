/-
The settings of the tool: which language a file is in where its name does not say, how reports look,
and how far the check goes. A file that leaves a setting out has its default.
-/
import DoomLex.Language
import DoomLex.Text.Order
import DoomLex.Toml.Basic

namespace DoomLex

/-! ## Overrides -/

/-- Puts a value under a key into a list in the order of its keys. -/
def putSorted (key value : Text) : List (Text × Text) → List (Text × Text)
  | [] => [(key, value)]
  | (k, v) :: rest =>
    if key.precedes k then (key, value) :: (k, v) :: rest
    else if key = k then (key, value) :: rest
    else (k, v) :: putSorted key value rest

/-- The names of the languages of extensions, in the order of the extensions, each once. -/
structure Overrides where
  entries : List (Text × Text)
  sorted : entries.Pairwise fun a b => a.1.precedes b.1 = true

/-! ## Settings -/

/-- Which language a file is in. -/
structure LexSettings where
  /-- The language of files that nothing else tells. -/
  defaultLanguage : Option Text
  /-- The languages of files by their extensions. -/
  overrides : Overrides

/-- How reports look. -/
structure OutputSettings where
  format : Text
  showWhitespace : Bool
deriving DecidableEq

/-- How far the check goes. -/
structure CheckSettings where
  jobs : UInt32
  /-- How many faults of a file are reported one by one. -/
  maxErrors : UInt64
deriving DecidableEq

/-- The settings of the tool. -/
structure Settings where
  verbose : Bool
  lex : LexSettings
  output : OutputSettings
  check : CheckSettings

/-- The name of files with settings. -/
def settingsFileName : String := "dtkt.toml"

theorem mem_putSorted {key value : Text} {e : Text × Text} {entries : List (Text × Text)}
    (h : e ∈ putSorted key value entries) : e = (key, value) ∨ e ∈ entries := by
  induction entries with
  | nil => simpa [putSorted] using h
  | cons f rest ih =>
    obtain ⟨k, v⟩ := f
    unfold putSorted at h
    split at h
    · simpa using h
    · split at h
      · rcases List.mem_cons.1 h with h | h
        · exact .inl h
        · exact .inr (List.mem_cons_of_mem _ h)
      · rcases List.mem_cons.1 h with h | h
        · exact .inr (h ▸ List.mem_cons_self ..)
        · rcases ih h with h | h
          · exact .inl h
          · exact .inr (List.mem_cons_of_mem _ h)

theorem sorted_putSorted {key value : Text} {entries : List (Text × Text)}
    (h : entries.Pairwise fun a b => a.1.precedes b.1 = true) :
    (putSorted key value entries).Pairwise fun a b => a.1.precedes b.1 = true := by
  induction entries with
  | nil => simp [putSorted]
  | cons f rest ih =>
    obtain ⟨k, v⟩ := f
    obtain ⟨hk, hrest⟩ := List.pairwise_cons.1 h
    unfold putSorted
    split
    · rename_i hlt
      refine List.pairwise_cons.2 ⟨fun e he => ?_, h⟩
      rcases List.mem_cons.1 he with rfl | he
      · exact hlt
      · exact Text.precedes_trans hlt (hk e he)
    · rename_i hlt
      split
      · rename_i heq
        subst heq
        exact List.pairwise_cons.2 ⟨hk, hrest⟩
      · rename_i hne
        refine List.pairwise_cons.2 ⟨fun e he => ?_, ih hrest⟩
        rcases mem_putSorted he with rfl | he
        · refine Decidable.by_contra fun hnot => hne ?_
          exact Text.eq_of_not_precedes (by simpa using hlt) (by simpa using hnot)
        · exact hk e he

namespace Overrides

/-- No overrides. -/
def empty : Overrides := ⟨[], List.Pairwise.nil⟩

/-- Gives an extension a language. -/
def insert (o : Overrides) (extension language : Text) : Overrides :=
  ⟨putSorted extension language o.entries, sorted_putSorted o.sorted⟩

/-- The name given to an extension: that of the first key that is the same in any case of ASCII
letters. -/
def find? (o : Overrides) (extension : Text) : Option Text :=
  (o.entries.find? fun e => Text.sameFolded e.1 extension).map (·.2)

end Overrides

namespace Settings

/-- The settings where no file gives any, on a machine with so many processors. -/
def default (processors : UInt32) : Settings where
  verbose := false
  lex := ⟨none, .empty⟩
  output := ⟨"text".toList, false⟩
  check := ⟨processors, 100⟩

end Settings

end DoomLex
