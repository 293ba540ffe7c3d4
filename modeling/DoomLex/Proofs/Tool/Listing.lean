/-
The catalogue lists an extension of the settings under the language in which files with it are. A name means one
language at most, so an override stands in one entry of the catalogue or in none. Where no two overrides are for
extensions that differ in case alone, the search for the override of a path finds the one that is listed.
-/
import DoomLex.Proofs.Tool.Resolution
import DoomLex.Tool.Catalogue

namespace DoomLex

/-! ## Names of languages -/

namespace Language

variable {l l' : Language} {name wanted : Text}

/-- The names of a language. -/
def names (l : Language) : List String := l.name :: l.displayName :: l.aliases

theorem hasName_iff : l.hasName wanted = true ↔ ∃ known ∈ l.names, Text.sameFolded known.toList wanted = true :=
  List.any_eq_true

/-- No two languages share a name. -/
theorem eq_of_hasName (h : l.hasName wanted = true) (h' : l'.hasName wanted = true) : l = l' := by
  have hdistinct : ∀ l ∈ all, ∀ l' ∈ all, ∀ known ∈ l.names, ∀ known' ∈ l'.names,
      Text.sameFolded known.toList known'.toList = true → l = l' := by decide +kernel
  obtain ⟨known, hknown, hsame⟩ := hasName_iff.1 h
  obtain ⟨known', hknown', hsame'⟩ := hasName_iff.1 h'
  refine hdistinct l (mem_all l) l' (mem_all l') known hknown known' hknown' ?_
  exact Text.sameFolded_iff.2 ((Text.sameFolded_iff.1 hsame).trans (Text.sameFolded_iff.1 hsame').symm)

theorem ofName?_eq_some_iff : ofName? name = some l ↔ l.hasName (Text.trim name) = true := by
  have hfound : ∀ l', ofName? name = some l' → l'.hasName (Text.trim name) = true :=
    fun l' h => List.find?_some (p := fun l : Language => l.hasName (Text.trim name)) h
  refine ⟨hfound l, fun h => ?_⟩
  cases hl' : ofName? name with
  | some l' => rw [eq_of_hasName h (hfound l' hl')]
  | none => exact absurd h (List.find?_eq_none.1 hl' l (mem_all l))

theorem ofName?_eq_none_iff : ofName? name = none ↔ ∀ l : Language, l.hasName (Text.trim name) = false := by
  simp [ofName?, mem_all]

end Language

/-! ## Overrides -/

namespace Overrides

variable {o : Overrides} {k name : Text}

/-- No two keys differ in the case of ASCII letters alone. -/
def DistinctKeys (o : Overrides) : Prop := o.entries.Pairwise fun a b => Text.sameFolded a.1 b.1 = false

instance decidableDistinctKeys : Decidable o.DistinctKeys :=
  inferInstanceAs (Decidable (o.entries.Pairwise fun a b => Text.sameFolded a.1 b.1 = false))

theorem DistinctKeys.exists_split (hdistinct : o.DistinctKeys) (h : (k, name) ∈ o.entries) :
    ∃ before after, o.entries = before ++ (k, name) :: after ∧
      (∀ e ∈ before, Text.foldCase e.1 ≠ Text.foldCase k) ∧ ∀ e ∈ after, Text.foldCase e.1 ≠ Text.foldCase k := by
  obtain ⟨before, after, hsplit⟩ := List.append_of_mem h
  rw [DistinctKeys, hsplit, List.pairwise_append, List.pairwise_cons] at hdistinct
  obtain ⟨-, ⟨hafter, -⟩, hbefore⟩ := hdistinct
  refine ⟨before, after, hsplit, fun e he hsame => ?_, fun e he hsame => ?_⟩
  · have hdiffer := hbefore e he _ List.mem_cons_self
    rw [Text.sameFolded_iff.2 hsame] at hdiffer
    cases hdiffer
  · have hdiffer := hafter e he
    rw [Text.sameFolded_iff.2 hsame.symm] at hdiffer
    cases hdiffer

theorem DistinctKeys.filter_key (hdistinct : o.DistinctKeys) (h : (k, name) ∈ o.entries) :
    o.entries.filter (fun e => e.1 = k) = [(k, name)] := by
  obtain ⟨before, after, hsplit, hbefore, hafter⟩ := hdistinct.exists_split h
  have hnone : ∀ es : List (Text × Text), (∀ e ∈ es, Text.foldCase e.1 ≠ Text.foldCase k) →
      es.filter (fun e => e.1 = k) = [] := by
    intro es hes
    refine List.filter_eq_nil_iff.2 fun e he hkey => hes e he ?_
    rw [of_decide_eq_true hkey]
  rw [hsplit, List.filter_append, List.filter_cons_of_pos (by simp), hnone before hbefore, hnone after hafter]
  rfl

end Overrides

/-! ## The catalogue -/

namespace Catalogue

variable {s : LexSettings} {o : Overrides} {k name : Text}

/-- The languages under which entries list an extension of the settings, once for each time. -/
def listedUnder (es : List LanguageEntry) (k : Text) : List Language :=
  es.flatMap fun e => (e.configured.filter (· = k)).map fun _ => e.language

theorem filter_configured (hdistinct : o.DistinctKeys) (h : (k, name) ∈ o.entries) (l : Language) :
    (configured o l).filter (· = k) = if Language.ofName? name = some l then [k] else [] := by
  have hswap : (configured o l).filter (· = k) =
      ((o.entries.filter fun e => e.1 = k).filter fun e => Language.ofName? e.2 == some l).map (·.1) := by
    rw [configured, List.filter_map, List.filter_filter, List.filter_filter]
    exact congrArg _ (List.filter_congr fun e _ => Bool.and_comm ..)
  rw [hswap, hdistinct.filter_key h]
  by_cases hl : Language.ofName? name = some l
  · simp [hl]
  · simp [hl]

/-- An override is listed under the language that its name means, and nowhere else. -/
theorem listedUnder_entries (hdistinct : s.overrides.DistinctKeys) (h : (k, name) ∈ s.overrides.entries)
    (withKeywords : Bool) : listedUnder (entries s withKeywords) k = (Language.ofName? name).toList := by
  have hentries : listedUnder (entries s withKeywords) k =
      Language.all.flatMap fun l => if Language.ofName? name = some l then [l] else [] := by
    rw [listedUnder, entries, List.flatMap_map]
    refine congrArg Language.all.flatMap (funext fun l => ?_)
    rw [entry, filter_configured hdistinct h]
    by_cases hl : Language.ofName? name = some l
    · rw [if_pos hl, if_pos hl]
      rfl
    · rw [if_neg hl, if_neg hl]
      rfl
  rw [hentries]
  cases Language.ofName? name with
  | none => rfl
  | some l => cases l <;> rfl

end Catalogue

/-! ## Listing and resolving -/

namespace LexSettings

variable {s : LexSettings} {k name extension : Text} {p : Path}

/-- Where the keys are distinct in any case, the override of a path is the one whose key is its extension. -/
theorem overriddenBy_of_distinctKeys (hdistinct : s.overrides.DistinctKeys) (h : (k, name) ∈ s.overrides.entries)
    (hextension : p.extension? = some extension) (hkey : Text.sameFolded k extension = true) :
    s.OverriddenBy p name := by
  obtain ⟨before, after, hsplit, hbefore, -⟩ := hdistinct.exists_split h
  refine ⟨extension, before, k, after, hextension, hsplit, hkey, fun e he => ?_⟩
  cases hsame : Text.sameFolded e.1 extension with
  | false => rfl
  | true => exact absurd ((Text.sameFolded_iff.1 hsame).trans (Text.sameFolded_iff.1 hkey).symm) (hbefore e he)

end LexSettings

open LexSettings in
/-- The catalogue agrees with the search for languages on every override, if no two keys differ in the case of ASCII
letters alone. A key whose name means a language is listed once, under that language, and files with the extension are
in that language, whatever their names and the default say. A key whose name means none is listed nowhere, and the
language of such a file is an error of the settings. -/
theorem listing_matches_resolution {s : LexSettings} (hdistinct : s.overrides.DistinctKeys) {k name : Text}
    (hentry : (k, name) ∈ s.overrides.entries) (withKeywords : Bool) :
    (∀ l : Language, l.hasName (Text.trim name) = true →
      Catalogue.listedUnder (Catalogue.entries s withKeywords) k = [l] ∧
      ∀ (p : Path) extension default, p.extension? = some extension → Text.sameFolded k extension = true →
        { s with defaultLanguage := default }.resolve none p = .ok l) ∧
    ((∀ l : Language, l.hasName (Text.trim name) = false) →
      Catalogue.listedUnder (Catalogue.entries s withKeywords) k = [] ∧
      ∀ (p : Path) extension default, p.extension? = some extension → Text.sameFolded k extension = true →
        { s with defaultLanguage := default }.resolve none p = .error (.unknownSetLanguage name)) ∧
    (ToolError.unknownSetLanguage name).group = .config := by
  have hlisted := Catalogue.listedUnder_entries hdistinct hentry withKeywords
  refine ⟨fun l hl => ?_, fun hnone => ?_, rfl⟩
  · have hname := Language.ofName?_eq_some_iff.2 hl
    refine ⟨by rw [hlisted, hname]; rfl, fun p extension default hextension hkey => ?_⟩
    have hover : { s with defaultLanguage := default }.OverriddenBy p name :=
      overriddenBy_of_distinctKeys hdistinct hentry hextension hkey
    exact resolve_of_overriding (overriding_of_ofName?_eq_some hover hname)
  · have hname := Language.ofName?_eq_none_iff.2 hnone
    refine ⟨by rw [hlisted, hname]; rfl, fun p extension default hextension hkey => ?_⟩
    have hover : { s with defaultLanguage := default }.OverriddenBy p name :=
      overriddenBy_of_distinctKeys hdistinct hentry hextension hkey
    exact resolve_of_overriding_error (overriding_of_ofName?_eq_none hover hname)

/-- The override is for files that are known by their name to be in another language. -/
theorem listing_matches_resolution_script :
    let o := Overrides.empty
      |>.insert "script".toList " SwAnim\t".toList
      |>.insert "dh".toList "none".toList
    let s : LexSettings := ⟨some "wadmerge".toList, o⟩
    o.DistinctKeys ∧ ("script".toList, " SwAnim\t".toList) ∈ o.entries ∧
      Catalogue.listedUnder (Catalogue.entries s true) "script".toList = [.defSwAni] ∧
      s.resolve none (Path.ofString "doommake.SCRIPT") = .ok .defSwAni ∧
      Language.ofPath? (Path.ofString "doommake.SCRIPT") = some .doomMake := by
  intro o s
  have hdistinct : o.DistinctKeys := by decide +kernel
  have hentry : ("script".toList, " SwAnim\t".toList) ∈ o.entries := by decide +kernel
  obtain ⟨hlisted, hresolve⟩ :=
    (listing_matches_resolution (s := s) hdistinct hentry true).1 .defSwAni (by decide +kernel)
  refine ⟨hdistinct, hentry, hlisted, ?_, by decide +kernel⟩
  exact hresolve (Path.ofString "doommake.SCRIPT") "SCRIPT".toList (some "wadmerge".toList) (by decide +kernel)
    (by decide +kernel)

end DoomLex
