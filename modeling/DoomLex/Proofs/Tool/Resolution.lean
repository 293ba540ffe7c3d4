/-
Which files a directory stands for, and in which language each of them is. A directory stands for the files
whose language is known without a default; the language of a file is looked for in the overrides, in the names
and extensions of files, and only then in the default. So both agree on every path, unless the override of its
extension names no language: that stops the search for the language, and a directory passes over it.
-/
import DoomLex.Tool.Inputs

namespace DoomLex

/-! ## Names and extensions of files -/

namespace Language

/-- A language to which a path belongs by its file name or its extension, in any case of ASCII letters. -/
def Claims (l : Language) (p : Path) : Prop :=
  (∃ name, p.fileName? = some name ∧ ∃ known ∈ l.fileNames, Text.sameFolded known.toList name = true) ∨
    ∃ extension, p.extension? = some extension ∧
      ∃ known ∈ l.extensions, Text.sameFolded known.toList extension = true

theorem mem_all (l : Language) : l ∈ all := by
  cases l <;> decide

theorem isSome_ofFileName?_iff {name : Text} :
    (ofFileName? name).isSome = true ↔
      ∃ l : Language, ∃ known ∈ l.fileNames, Text.sameFolded known.toList name = true := by
  simp [ofFileName?, List.find?_isSome, mem_all]

theorem isSome_ofExtension?_iff {extension : Text} :
    (ofExtension? extension).isSome = true ↔
      ∃ l : Language, ∃ known ∈ l.extensions, Text.sameFolded known.toList extension = true := by
  simp [ofExtension?, List.find?_isSome, mem_all]

theorem isSome_ofPath?_iff {p : Path} : (ofPath? p).isSome = true ↔ ∃ l : Language, l.Claims p := by
  rw [ofPath?, Option.isSome_or, Bool.or_eq_true, Option.isSome_bind, Option.isSome_bind,
    Option.any_eq_true, Option.any_eq_true]
  simp only [isSome_ofFileName?_iff, isSome_ofExtension?_iff]
  constructor
  · rintro (⟨name, hname, l, hl⟩ | ⟨extension, hextension, l, hl⟩)
    · exact ⟨l, .inl ⟨name, hname, hl⟩⟩
    · exact ⟨l, .inr ⟨extension, hextension, hl⟩⟩
  · rintro ⟨l, ⟨name, hname, hl⟩ | ⟨extension, hextension, hl⟩⟩
    · exact .inl ⟨name, hname, l, hl⟩
    · exact .inr ⟨extension, hextension, l, hl⟩

end Language

/-! ## Overrides -/

namespace LexSettings

variable {s : LexSettings} {p : Path} {name : Text} {l : Language}

/-- The settings with no default language. -/
def withoutDefault (s : LexSettings) : LexSettings := { s with defaultLanguage := none }

/-- The name that the overrides give to a path: that of the first key which is its extension in any case of
ASCII letters. -/
def OverriddenBy (s : LexSettings) (p : Path) (name : Text) : Prop :=
  ∃ extension before key after, p.extension? = some extension ∧
    s.overrides.entries = before ++ (key, name) :: after ∧
    Text.sameFolded key extension = true ∧ ∀ e ∈ before, Text.sameFolded e.1 extension = false

theorem overriddenBy_iff :
    s.OverriddenBy p name ↔ ∃ extension, p.extension? = some extension ∧
      s.overrides.find? extension = some name := by
  constructor
  · rintro ⟨extension, before, key, after, hextension, hentries, hkey, hbefore⟩
    refine ⟨extension, hextension, Option.map_eq_some_iff.2 ⟨(key, name), ?_, rfl⟩⟩
    refine List.find?_eq_some_iff_append.2 ⟨hkey, before, after, hentries, fun e he => ?_⟩
    rw [hbefore e he]
    rfl
  · rintro ⟨extension, hextension, hfind⟩
    obtain ⟨⟨key, _⟩, hfound, rfl⟩ := Option.map_eq_some_iff.1 hfind
    obtain ⟨hkey, before, after, hentries, hbefore⟩ := List.find?_eq_some_iff_append.1 hfound
    exact ⟨extension, before, key, after, hextension, hentries, hkey, fun e he => by simpa using hbefore e he⟩

theorem overriding_of_overriddenBy (h : s.OverriddenBy p name) :
    s.overriding p = (languageOf name).map some := by
  obtain ⟨extension, hextension, hfind⟩ := overriddenBy_iff.1 h
  rw [overriding, hextension]
  show s.languageForExtension extension = _
  rw [languageForExtension, hfind]

theorem overriding_of_not_overridden (h : ∀ name, ¬ s.OverriddenBy p name) : s.overriding p = .ok none := by
  unfold overriding
  cases hextension : p.extension? with
  | none => rfl
  | some extension =>
    show s.languageForExtension extension = _
    unfold languageForExtension
    cases hfind : s.overrides.find? extension with
    | none => rfl
    | some name => exact absurd (overriddenBy_iff.2 ⟨extension, hextension, hfind⟩) (h name)

/-- An override that names a language decides. -/
theorem overriding_of_ofName?_eq_some (h : s.OverriddenBy p name) (hl : Language.ofName? name = some l) :
    s.overriding p = .ok (some l) := by
  rw [overriding_of_overriddenBy h, languageOf, hl]
  rfl

/-- An override that names no language is an error. -/
theorem overriding_of_ofName?_eq_none (h : s.OverriddenBy p name) (hl : Language.ofName? name = none) :
    s.overriding p = .error (.unknownSetLanguage name) := by
  rw [overriding_of_overriddenBy h, languageOf, hl]
  rfl

/-- Where no override names what is no language, the overrides answer. -/
theorem exists_overriding
    (h : ∀ name, s.OverriddenBy p name → (Language.ofName? name).isSome = true) :
    ∃ l?, s.overriding p = .ok l? := by
  by_cases hover : ∃ name, s.OverriddenBy p name
  · obtain ⟨name, hname⟩ := hover
    obtain ⟨l, hl⟩ := Option.isSome_iff_exists.1 (h name hname)
    exact ⟨some l, overriding_of_ofName?_eq_some hname hl⟩
  · exact ⟨none, overriding_of_not_overridden fun name hname => hover ⟨name, hname⟩⟩

/-! ## The language of a path -/

theorem resolve_of_overriding_error {e : ToolError} (h : s.overriding p = .error e) :
    s.resolve none p = .error e := by
  simp only [resolve, h]

theorem resolve_of_overriding (h : s.overriding p = .ok (some l)) : s.resolve none p = .ok l := by
  simp only [resolve, h]

theorem resolve_of_ofPath? (h : s.overriding p = .ok none) (hl : Language.ofPath? p = some l) :
    s.resolve none p = .ok l := by
  simp only [resolve, h, hl]

/-- A path that neither the overrides nor its name and extension tell is in the default language, if it is in
any. -/
theorem resolve_eq_ok_iff_fallback (h : s.overriding p = .ok none) (hl : Language.ofPath? p = none) :
    s.resolve none p = .ok l ↔ s.fallback = .ok (some l) := by
  simp only [resolve, h, hl]
  rcases s.fallback with e | (_ | l') <;> simp

theorem not_resolve_withoutDefault (h : s.overriding p = .ok none) (hl : Language.ofPath? p = none) :
    ¬ ∃ l, s.withoutDefault.resolve none p = .ok l := by
  rintro ⟨l, hresolve⟩
  have hfallback := (resolve_eq_ok_iff_fallback (s := s.withoutDefault) h hl).1 hresolve
  cases hfallback

/-- What is told of the language of a path without a default: as the overrides or the name and the extension
give it, or nothing. -/
theorem cases_of_overriding {l? : Option Language} (h : s.overriding p = .ok l?) :
    (s.isKnownSource p = true ∧
      ∃ l, s.withoutDefault.resolve none p = .ok l ∧ s.resolve none p = .ok l) ∨
    s.isKnownSource p = false ∧ (¬ ∃ l, s.withoutDefault.resolve none p = .ok l) ∧
      ∀ l, s.resolve none p = .ok l → s.fallback = .ok (some l) := by
  have hwithout : s.withoutDefault.overriding p = .ok l? := h
  rcases l? with _ | l
  · cases hl : Language.ofPath? p with
    | none =>
      refine .inr ⟨?_, not_resolve_withoutDefault h hl, fun l => (resolve_eq_ok_iff_fallback h hl).1⟩
      simp [isKnownSource, h, hl]
    | some l =>
      refine .inl ⟨?_, l, resolve_of_ofPath? hwithout hl, resolve_of_ofPath? h hl⟩
      simp [isKnownSource, hl]
  · refine .inl ⟨?_, l, resolve_of_overriding hwithout, resolve_of_overriding h⟩
    simp [isKnownSource, h]

end LexSettings

namespace FileTree

variable {fs : FileTree} {s : LexSettings} {p directory : Path}

theorem mem_knownSources :
    p ∈ fs.knownSources s directory ↔
      p ∈ fs.entries directory ∧ fs.isFile p = true ∧ s.isKnownSource p = true := by
  rw [knownSources, List.mem_filter, Bool.and_eq_true]

end FileTree

open LexSettings in
/-- A directory stands for a file exactly if its language can be told without a default, and a default then
changes nothing: so a file that a directory stands for always has a language, and one that it leaves out could
only be in the default language. This is so wherever the override of the extension names a language or there is
none. An override that names no language is an error, whatever the default, though a directory still stands for
the file if its name or its extension belong to a language. -/
theorem known_sources_resolve (s : LexSettings) (p : Path) :
    ((∀ name, s.OverriddenBy p name → (Language.ofName? name).isSome = true) →
      (s.isKnownSource p = true ↔ ∃ l, s.withoutDefault.resolve none p = .ok l) ∧
      (∀ l, s.withoutDefault.resolve none p = .ok l → s.resolve none p = .ok l) ∧
      (∀ (fs : FileTree) directory, p ∈ fs.knownSources s directory → ∃ l, s.resolve none p = .ok l) ∧
      ∀ (fs : FileTree) directory, p ∈ fs.entries directory → fs.isFile p = true →
        p ∉ fs.knownSources s directory → ∀ l, s.resolve none p = .ok l → s.fallback = .ok (some l)) ∧
    ∀ name, s.OverriddenBy p name → Language.ofName? name = none →
      (∀ default, { s with defaultLanguage := default }.resolve none p = .error (.unknownSetLanguage name)) ∧
      (ToolError.unknownSetLanguage name).group = .config ∧
      (s.isKnownSource p = true ↔ ∃ l : Language, l.Claims p) := by
  constructor
  · intro hnames
    obtain ⟨l?, hoverriding⟩ := exists_overriding hnames
    rcases cases_of_overriding hoverriding with ⟨hknown, l, hwithout, hwith⟩ | ⟨hunknown, hwithout, hdefault⟩
    · refine ⟨⟨fun _ => ⟨l, hwithout⟩, fun _ => hknown⟩, ?_, fun _ _ _ => ⟨l, hwith⟩, ?_⟩
      · intro l' hl'
        obtain rfl : l = l' := Except.ok.inj (hwithout.symm.trans hl')
        exact hwith
      · intro fs directory hentry hfile hleft
        exact absurd (FileTree.mem_knownSources.2 ⟨hentry, hfile, hknown⟩) hleft
    · refine ⟨⟨fun hknown => ?_, fun hl => absurd hl hwithout⟩, fun l hl => absurd ⟨l, hl⟩ hwithout, ?_,
        fun _ _ _ _ _ => hdefault⟩
      · rw [hunknown] at hknown
        cases hknown
      · intro fs directory hmem
        have hknown := (FileTree.mem_knownSources.1 hmem).2.2
        rw [hunknown] at hknown
        cases hknown
  · intro name hname hnone
    refine ⟨fun default => ?_, rfl, ?_⟩
    · have hsame : { s with defaultLanguage := default }.OverriddenBy p name := hname
      exact resolve_of_overriding_error (overriding_of_ofName?_eq_none hsame hnone)
    · rw [isKnownSource, overriding_of_ofName?_eq_none hname hnone, Bool.false_or,
        Language.isSome_ofPath?_iff]

example :
    let s : LexSettings := ⟨some "decohack".toList, Overrides.empty.insert "DH".toList "none".toList⟩
    let p := Path.ofString "a.dh"
    s.isKnownSource p = true ∧ s.resolve none p = .error (.unknownSetLanguage "none".toList) := ⟨rfl, rfl⟩

end DoomLex
