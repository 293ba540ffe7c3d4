/-
The files of a run are a set in a canonical order. What an input stands for is said of the tree alone: a file
stands for itself, a directory for the files directly in it whose language is known. The list that a run takes
strictly ascends in the order of paths and holds just these files, so that neither the order of the inputs nor
their repetition shows in it, and taking the list as inputs gives it back.
-/
import DoomLex.Proofs.Files.Changes
import DoomLex.Proofs.Path.Order

namespace DoomLex

namespace FileTree

variable {fs : FileTree} {s : LexSettings} {inputs inputs' files : List Path} {p d : Path}

/-! ## Inputs -/

/-- A path that leads to a file or to a directory. -/
def IsInput (fs : FileTree) (p : Path) : Prop := fs.isFile p = true ∨ fs.isDirectory p = true

/-- A file that inputs stand for: one of them, or one of known language whose name stands directly in a
directory among them. -/
inductive Selected (fs : FileTree) (s : LexSettings) (inputs : List Path) : Path → Prop
  | named {p : Path} (hmem : p ∈ inputs) (hfile : fs.isFile p = true) : Selected fs s inputs p
  | child {d : Path} {place : Place} {name : Text} (hmem : d ∈ inputs) (hplace : fs.place d = .ok place)
      (hdirectory : fs.node? place = some .directory) (hthere : (fs.node? (place ++ [name])).isSome = true)
      (hfile : fs.isFile (d.join ⟨name⟩) = true) (hknown : s.isKnownSource (d.join ⟨name⟩) = true) :
      Selected fs s inputs (d.join ⟨name⟩)

theorem Selected.isFile (h : Selected fs s inputs p) : fs.isFile p = true := by
  cases h <;> assumption

theorem Selected.mono (h : Selected fs s inputs p) (hsub : ∀ q ∈ inputs, q ∈ inputs') :
    Selected fs s inputs' p := by
  cases h with
  | named hmem hfile => exact .named (hsub p hmem) hfile
  | child hmem hplace hdirectory hthere hfile hknown =>
    exact .child (hsub _ hmem) hplace hdirectory hthere hfile hknown

/-! ## Entries of directories -/

theorem mem_namesIn {place : Place} {name : Text} :
    name ∈ fs.namesIn place ↔ (fs.node? (place ++ [name])).isSome = true := by
  have hne : place ++ [name] ≠ [] := List.append_ne_nil_of_right_ne_nil place (List.cons_ne_nil name [])
  rw [node?, if_neg hne, List.lookup_isSome_iff, namesIn, List.mem_filterMap]
  constructor
  · rintro ⟨⟨place', node⟩, hmem, h⟩
    obtain ⟨hplace, hname⟩ : place'.dropLast = place ∧ place'.getLast? = some name := by simpa using h
    obtain ⟨front, rfl⟩ := List.getLast?_eq_some_iff.1 hname
    rw [List.dropLast_concat] at hplace
    exact ⟨(front ++ [name], node), hmem, by simp [hplace]⟩
  · rintro ⟨⟨place', node⟩, hmem, h⟩
    obtain rfl : place ++ [name] = place' := by simpa using h
    exact ⟨(place ++ [name], node), hmem, by simp⟩

theorem mem_entries : p ∈ fs.entries d ↔ ∃ place name, fs.place d = .ok place ∧
    (fs.node? (place ++ [name])).isSome = true ∧ p = d.join ⟨name⟩ := by
  unfold entries
  cases hplace : fs.place d with
  | error e => simp
  | ok place =>
    rw [List.mem_map]
    constructor
    · rintro ⟨name, hname, rfl⟩
      exact ⟨place, name, rfl, mem_namesIn.1 hname, rfl⟩
    · rintro ⟨place', name, hplace', hname, rfl⟩
      cases hplace'
      exact ⟨name, mem_namesIn.2 hname, rfl⟩

theorem mem_expand {one : List Path} (h : fs.expand s d = .ok one) :
    p ∈ one ↔ Selected fs s [d] p := by
  unfold expand at h
  split at h
  · rename_i hdirectory
    cases h
    rw [knownSources, List.mem_filter, mem_entries, Bool.and_eq_true]
    constructor
    · rintro ⟨⟨place, name, hplace, hthere, rfl⟩, hfile, hknown⟩
      obtain ⟨place', hplace', hnode⟩ := exists_place_of_isDirectory hdirectory
      cases hplace.symm.trans hplace'
      exact .child List.mem_cons_self hplace hnode hthere hfile hknown
    · intro hselected
      cases hselected with
      | named hmem hfile =>
        -- a directory is no file
        rw [List.mem_singleton.1 hmem] at hfile
        rw [isDirectory_of_isFile hfile] at hdirectory
        cases hdirectory
      | child hmem hplace hnode hthere hfile hknown =>
        rw [List.mem_singleton.1 hmem] at hplace hfile hknown ⊢
        exact ⟨⟨_, _, hplace, hthere, rfl⟩, hfile, hknown⟩
  · rename_i hdirectory
    split at h
    · rename_i hfile
      cases h
      rw [List.mem_singleton]
      constructor
      · rintro rfl
        exact .named List.mem_cons_self hfile
      · intro hselected
        cases hselected with
        | named hmem => exact List.mem_singleton.1 hmem
        | child hmem hplace hnode =>
          rw [List.mem_singleton.1 hmem] at hplace
          exact absurd (isDirectory_of_place hplace hnode) hdirectory
    · cases h

theorem exists_expand (h : fs.IsInput d) : ∃ one, fs.expand s d = .ok one := by
  unfold expand
  rcases h with hfile | hdirectory
  · exact ⟨[d], by rw [isDirectory_of_isFile hfile, hfile]; rfl⟩
  · exact ⟨_, if_pos hdirectory⟩

theorem expand_of_not_isInput (h : ¬ fs.IsInput d) : fs.expand s d = .error (.noSuchInput d) := by
  rw [IsInput, not_or] at h
  rw [expand, if_neg h.2, if_neg h.1]

/-! ## All inputs -/

theorem selected_cons_iff :
    Selected fs s (d :: inputs) p ↔ Selected fs s [d] p ∨ Selected fs s inputs p := by
  constructor
  · intro h
    cases h with
    | named hmem hfile =>
      rcases List.mem_cons.1 hmem with rfl | hmem
      · exact .inl (.named List.mem_cons_self hfile)
      · exact .inr (.named hmem hfile)
    | child hmem hplace hnode hthere hfile hknown =>
      rcases List.mem_cons.1 hmem with rfl | hmem
      · exact .inl (.child List.mem_cons_self hplace hnode hthere hfile hknown)
      · exact .inr (.child hmem hplace hnode hthere hfile hknown)
  · rintro (h | h)
    · exact h.mono fun q hq => List.mem_singleton.1 hq ▸ List.mem_cons_self
    · exact h.mono fun q => List.mem_cons_of_mem d

theorem not_selected_nil : ¬ Selected fs s [] p := by
  rintro (hmem | hmem) <;> cases hmem

theorem exists_expandAll (h : ∀ q ∈ inputs, fs.IsInput q) : ∃ files, fs.expandAll s inputs = .ok files := by
  induction inputs with
  | nil => exact ⟨[], rfl⟩
  | cons d inputs ih =>
    obtain ⟨hd, hinputs⟩ := List.forall_mem_cons.1 h
    obtain ⟨one, hone⟩ := exists_expand (s := s) hd
    obtain ⟨more, hmore⟩ := ih hinputs
    exact ⟨one ++ more, by simp only [expandAll, hone, hmore]⟩

/-- Inputs stand for the files selected, one input after the other. -/
theorem mem_expandAll (h : fs.expandAll s inputs = .ok files) : p ∈ files ↔ Selected fs s inputs p := by
  induction inputs generalizing files with
  | nil =>
    cases h
    exact ⟨fun hp => absurd hp List.not_mem_nil, fun hp => absurd hp not_selected_nil⟩
  | cons d inputs ih =>
    rw [expandAll] at h
    split at h
    · cases h
    · rename_i one hone
      split at h
      · cases h
      · rename_i more hmore
        cases h
        rw [List.mem_append, mem_expand hone, ih hmore]
        exact selected_cons_iff.symm

/-- The first input that is not there ends the run. -/
theorem expandAll_of_not_isInput {before after : List Path} (hbefore : ∀ q ∈ before, fs.IsInput q)
    (h : ¬ fs.IsInput d) : fs.expandAll s (before ++ d :: after) = .error (.noSuchInput d) := by
  induction before with
  | nil => simp only [List.nil_append, expandAll, expand_of_not_isInput h]
  | cons q before ih =>
    obtain ⟨hq, hbefore⟩ := List.forall_mem_cons.1 hbefore
    obtain ⟨one, hone⟩ := exists_expand (s := s) hq
    simp only [List.cons_append, expandAll, hone, ih hbefore]

/-- Files stand for themselves. -/
theorem expandAll_of_isFile (h : ∀ q ∈ inputs, fs.isFile q = true) : fs.expandAll s inputs = .ok inputs := by
  induction inputs with
  | nil => rfl
  | cons q inputs ih =>
    obtain ⟨hq, hinputs⟩ := List.forall_mem_cons.1 h
    have hone : fs.expand s q = .ok [q] := by
      rw [expand, isDirectory_of_isFile hq, hq]
      rfl
    simp only [expandAll, hone, ih hinputs]
    rfl

/-! ## The files of a run -/

/-- A list that strictly ascends in the order of paths and has the files that inputs stand for, each in one
spelling. -/
structure Canonical (fs : FileTree) (s : LexSettings) (inputs files : List Path) : Prop where
  ascending : files.Pairwise fun p q => p.compare q = .lt
  distinct : files.Pairwise fun p q => p.same q = false
  selected : ∀ p ∈ files, Selected fs s inputs p
  complete : ∀ p, Selected fs s inputs p → ∃ q ∈ files, q.same p = true

theorem exists_collect (hne : inputs ≠ []) (h : ∀ q ∈ inputs, fs.IsInput q) :
    ∃ files, fs.collect s inputs = .ok files := by
  obtain ⟨found, hfound⟩ := exists_expandAll (s := s) h
  exact ⟨Path.arrange found, by rw [collect, if_neg hne, hfound]⟩

theorem canonical_of_collect (h : fs.collect s inputs = .ok files) : Canonical fs s inputs files := by
  unfold collect at h
  split at h
  · cases h
  · split at h
    · cases h
    · rename_i found hfound
      cases h
      have hascending := Path.ascending_arrange found
      refine ⟨hascending, hascending.differ, ?_, ?_⟩
      · exact fun p hp => (mem_expandAll hfound).1 (Path.mem_of_mem_arrange hp)
      · exact fun p hp => Path.exists_same_mem_arrange ((mem_expandAll hfound).2 hp)

/-- Lists for the same inputs agree path by path. -/
theorem Canonical.forall₂_same {files' : List Path} (h : Canonical fs s inputs files)
    (h' : Canonical fs s inputs' files') (hinputs : ∀ q, q ∈ inputs' ↔ q ∈ inputs) :
    List.Forall₂ (fun p q => p.same q = true) files files' := by
  refine Path.forall₂_same_of_ascending h.ascending h'.ascending ?_ ?_
  · exact fun p hp => h'.complete p ((h.selected p hp).mono fun q => (hinputs q).2)
  · exact fun p hp => h.complete p ((h'.selected p hp).mono fun q => (hinputs q).1)

theorem collect_of_ascending (hne : files ≠ []) (hfiles : ∀ p ∈ files, fs.isFile p = true)
    (h : Path.Ascending files) : fs.collect s files = .ok files := by
  rw [collect, if_neg hne, expandAll_of_isFile hfiles]
  exact congrArg Except.ok (Path.arrange_of_ascending h)

end FileTree

open FileTree in
/-- The files of a run are a canonical set. Without inputs there is none, and an input that is neither a file nor
a directory ends the run with an error that names the first such input. Otherwise the files ascend strictly in
the order of paths, so that no two are the same, and are those that the inputs stand for: the inputs that are
files, and of each input that is a directory the files directly in it whose language is known. Inputs in another
order, or repeated, give the same paths, and the files taken as inputs give the list back. -/
theorem collect_canonical (fs : FileTree) (s : LexSettings) :
    (fs.collect s [] = .error .noInputs ∧ ToolError.noInputs.group = .validation) ∧
    (∀ before p after, (∀ q ∈ before, fs.IsInput q) → ¬ fs.IsInput p →
      fs.collect s (before ++ p :: after) = .error (.noSuchInput p) ∧
      (ToolError.noSuchInput p).group = .fileOperation ∧
      (ToolError.noSuchInput p).detail = "Input path does not exist: " ++ p.display) ∧
    ∀ inputs, inputs ≠ [] → (∀ p ∈ inputs, fs.IsInput p) →
      ∃ files, fs.collect s inputs = .ok files ∧ Canonical fs s inputs files ∧
        (∀ inputs', (∀ p, p ∈ inputs' ↔ p ∈ inputs) → ∃ files', fs.collect s inputs' = .ok files' ∧
          List.Forall₂ (fun p q => p.same q = true) files files') ∧
        (files ≠ [] → fs.collect s files = .ok files) := by
  refine ⟨⟨rfl, rfl⟩, ?_, ?_⟩
  · intro before p after hbefore hp
    have hne : before ++ p :: after ≠ [] := List.append_ne_nil_of_right_ne_nil before (List.cons_ne_nil p after)
    exact ⟨by rw [collect, if_neg hne, expandAll_of_not_isInput hbefore hp], rfl, rfl⟩
  · intro inputs hne hinputs
    obtain ⟨files, hfiles⟩ := exists_collect (s := s) hne hinputs
    have hcanonical := canonical_of_collect hfiles
    refine ⟨files, hfiles, hcanonical, ?_, fun hfiles' => ?_⟩
    · intro inputs' hsame
      have hne' : inputs' ≠ [] := by
        obtain ⟨p, hp⟩ := List.exists_mem_of_ne_nil inputs hne
        exact List.ne_nil_of_mem ((hsame p).2 hp)
      obtain ⟨files', hfiles'⟩ := exists_collect (s := s) hne' fun p hp => hinputs p ((hsame p).1 hp)
      exact ⟨files', hfiles', hcanonical.forall₂_same (canonical_of_collect hfiles') hsame⟩
    · exact collect_of_ascending hfiles' (fun p hp => (hcanonical.selected p hp).isFile) hcanonical.ascending

end DoomLex
