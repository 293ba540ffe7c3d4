/-
Settings are read from their document as they were written. The document is one of lines, so that it is read as
one pair for each setting under the header of its section; these fill the root table section by section, and each
section holds what its settings are read from, the overrides in their order.
-/
import DoomLex.Settings.Document
import DoomLex.Proofs.Toml.Lines
import DoomLex.Proofs.Toml.Tables

namespace DoomLex

/-! ## Overrides -/

namespace Overrides

variable {o p : Overrides} {key value : Text} {entries : List (Text × Text)}

theorem eq_of_entries (h : o.entries = p.entries) : o = p := by
  cases o
  cases p
  obtain rfl := h
  rfl

/-- A key after all others goes to the end. -/
theorem putSorted_of_forall_precedes (h : ∀ e ∈ entries, e.1.precedes key = true) :
    putSorted key value entries = entries ++ [(key, value)] := by
  induction entries with
  | nil => rfl
  | cons e entries ih =>
    obtain ⟨he, hentries⟩ := List.forall_mem_cons.1 h
    have hnot : ¬ key.precedes e.1 = true := fun hkey => by
      have hself := Text.precedes_trans he hkey
      rw [Text.precedes_self] at hself
      cases hself
    have hne : key ≠ e.1 := fun heq => hnot (heq ▸ he)
    rw [putSorted, if_neg hnot, if_neg hne, ih hentries, List.cons_append]

theorem nodup_keys (o : Overrides) : (o.entries.map Prod.fst).Nodup := by
  rw [List.Nodup, List.pairwise_map]
  refine o.sorted.imp fun hlt heq => ?_
  rw [heq, Text.precedes_self] at hlt
  cases hlt

end Overrides

namespace Settings

open Toml (Entries Statement Written pairs fill within openTable Spells)

variable {s : Settings} {t w : Text} {v : Toml}

/-! ## What settings are written as -/

/-- The table of the languages of extensions. -/
def overrideEntries (o : Overrides) : Entries := o.entries.map fun e => (e.1, .string e.2)

/-- The entry of the language of files that nothing else tells. -/
def languageEntries (l : LexSettings) : Entries :=
  l.defaultLanguage.toList.map fun name => ("default_language".toList, .string name)

/-- The entries of the section on reports. -/
def outputEntries (o : OutputSettings) : Entries :=
  [("format".toList, .string o.format), ("show_whitespace".toList, .boolean o.showWhitespace)]

/-- The entries of the section on checks. -/
def checkEntries (c : CheckSettings) : Entries :=
  [("jobs".toList, .integer c.jobs.toNat), ("max_errors_per_file".toList, .integer c.maxErrors.toNat)]

/-- The statements of the section on languages; the section has no header where it has no settings of its own. -/
def lexStatements (l : LexSettings) : List Statement :=
  (match l.defaultLanguage with
    | some _ => .header ["lex".toList] :: pairs (languageEntries l)
    | none => []) ++
  .header ["lex".toList, "extensions".toList] :: pairs (overrideEntries l.overrides)

/-- The statements of the document of the settings. -/
def statements (s : Settings) : List Statement :=
  pairs [("verbose".toList, .boolean s.verbose)] ++ lexStatements s.lex ++
  .header ["output".toList] :: pairs (outputEntries s.output) ++
  .header ["check".toList] :: pairs (checkEntries s.check)

/-- What brings the table of the section on languages about. -/
def lexOrigin (l : LexSettings) : TableOrigin := if l.defaultLanguage.isSome then .headed else .implied

/-- The section on languages. -/
def lexTable (l : LexSettings) : Toml :=
  .table (lexOrigin l) (languageEntries l ++ [("extensions".toList, .table .headed (overrideEntries l.overrides))])

/-- The root table of the document of the settings. -/
def root (s : Settings) : Entries :=
  [("verbose".toList, .boolean s.verbose), ("lex".toList, lexTable s.lex),
    ("output".toList, .table .headed (outputEntries s.output)),
    ("check".toList, .table .headed (checkEntries s.check))]

/-! ## Lines -/

theorem written_setting {name : String} (hname : Toml.writeKey name.toList = name.toList) (h : Spells w v) :
    Written (pairLine name.toList w) (pairs [(name.toList, v)]) := by
  have hline := Written.line (Toml.isLine_pair name.toList h) .nil
  rwa [List.append_nil, hname] at hline

theorem written_header {name : String} {path : List Text} (hfirst : name.toList.head? ≠ some '[')
    (hpath : ∀ rest, Toml.readPath Toml.maxDepth (name.toList ++ ']' :: rest) = some (path, ']' :: rest)) :
    Written (headerLine name) [.header path] := by
  have hline := Written.line (Toml.isLine_header hfirst hpath) .nil
  rw [List.append_nil] at hline
  exact .blank hline

theorem written_overrides (o : Overrides) :
    Written (o.entries.flatMap fun e => pairLine (Toml.writeKey e.1) (Toml.writeString e.2))
      (pairs (overrideEntries o)) := by
  rw [pairs, overrideEntries, List.map_map]
  exact Written.flatMap fun e _ => Toml.isLine_pair e.1 (Toml.spells_writeString e.2)

theorem written_lexStatements (l : LexSettings) :
    Written
      ((match l.defaultLanguage with
        | some name => headerLine "lex" ++ pairLine "default_language".toList (Toml.writeString name)
        | none => []) ++
      headerLine "lex.extensions" ++
      l.overrides.entries.flatMap fun e => pairLine (Toml.writeKey e.1) (Toml.writeString e.2))
      (lexStatements l) := by
  have hextensions : Written (headerLine "lex.extensions") [.header ["lex".toList, "extensions".toList]] :=
    written_header (by decide) fun _ => rfl
  have hoverrides := written_overrides l.overrides
  cases hname : l.defaultLanguage with
  | none =>
    simp only [lexStatements, hname]
    exact hextensions.append hoverrides
  | some name =>
    have hlex : Written (headerLine "lex") [.header ["lex".toList]] := written_header (by decide) fun _ => rfl
    have hlanguage : Written (pairLine "default_language".toList (Toml.writeString name))
        (pairs [("default_language".toList, .string name)]) := written_setting rfl (Toml.spells_writeString name)
    simp only [lexStatements, languageEntries, hname]
    exact ((hlex.append hlanguage).append hextensions).append hoverrides

theorem written_output (o : OutputSettings) :
    Written (headerLine "output" ++ pairLine "format".toList (Toml.writeString o.format) ++
        pairLine "show_whitespace".toList (booleanText o.showWhitespace))
      (.header ["output".toList] :: pairs (outputEntries o)) := by
  have hheader : Written (headerLine "output") [.header ["output".toList]] :=
    written_header (by decide) fun _ => rfl
  have hformat : Written _ (pairs [("format".toList, _)]) :=
    written_setting rfl (Toml.spells_writeString o.format)
  have hshow : Written _ (pairs [("show_whitespace".toList, _)]) :=
    written_setting rfl (Toml.spells_boolean o.showWhitespace)
  exact (hheader.append hformat).append hshow

theorem written_check (c : CheckSettings) (hfits : c.maxErrors.toNat < Toml.integerBound) :
    Written (headerLine "check" ++ pairLine "jobs".toList (Text.numeral c.jobs.toNat) ++
        pairLine "max_errors_per_file".toList (Text.numeral c.maxErrors.toNat))
      (.header ["check".toList] :: pairs (checkEntries c)) := by
  have hheader : Written (headerLine "check") [.header ["check".toList]] := written_header (by decide) fun _ => rfl
  have hbound : c.jobs.toNat < Toml.integerBound := Nat.lt_trans c.jobs.toNat_lt (by decide)
  have hjobs : Written _ (pairs [("jobs".toList, _)]) := written_setting rfl (Toml.spells_numeral hbound)
  have hmax : Written _ (pairs [("max_errors_per_file".toList, _)]) :=
    written_setting rfl (Toml.spells_numeral hfits)
  exact (hheader.append hjobs).append hmax

/-- The document has a line for each statement. -/
theorem written_of_toDocument? (h : s.toDocument? = some t) : Written t (statements s) := by
  rw [toDocument?, Option.ite_none_right_eq_some] at h
  obtain ⟨hfits, h⟩ := h
  obtain rfl := Option.some.inj h
  have hverbose : Written _ (pairs [("verbose".toList, _)]) :=
    written_setting rfl (Toml.spells_boolean s.verbose)
  have hlex := written_lexStatements s.lex
  have hdocument := ((hverbose.append hlex).append (written_output s.output)).append (written_check s.check hfits)
  simp only [List.append_assoc] at hdocument
  simp only [statements, List.append_assoc]
  exact hdocument

/-! ## Tables -/

theorem nodup_keys_overrideEntries (o : Overrides) : ((overrideEntries o).map Prod.fst).Nodup := by
  have hkeys : (overrideEntries o).map Prod.fst = o.entries.map Prod.fst := by
    rw [overrideEntries, List.map_map]
    rfl
  exact hkeys ▸ o.nodup_keys

theorem fill_lexStatements {current : List Text} {root : Entries} (hlex : "lex".toList ∉ root.map Prod.fst)
    (l : LexSettings) (rest : List Statement) :
    fill current root (lexStatements l ++ rest) =
      fill ["lex".toList, "extensions".toList] (root ++ [("lex".toList, lexTable l)]) rest := by
  have hnodup := nodup_keys_overrideEntries l.overrides
  cases hname : l.defaultLanguage with
  | none =>
    have hlanguage : languageEntries l = [] := by rw [languageEntries, hname]; rfl
    have horigin : lexOrigin l = .implied := by rw [lexOrigin, hname]; rfl
    have hopen : within (openTable "extensions".toList) ["lex".toList] root =
        some (root ++ [("lex".toList, .table .implied ([] ++ [("extensions".toList, .table .headed [])]))]) := by
      rw [within, Toml.lookup_eq_none_of_notMem hlex]
      exact congrArg some (Toml.setEntry_of_notMem hlex _)
    simp only [lexStatements, lexTable, hname, hlanguage, horigin]
    exact Toml.fill_subsection hlex (by simp) (by decide) hopen hnodup
  | some name =>
    have hlanguage : languageEntries l = [("default_language".toList, .string name)] := by
      rw [languageEntries, hname]
      rfl
    have horigin : lexOrigin l = .headed := by rw [lexOrigin, hname]; rfl
    have hnew : "extensions".toList ∉ [("default_language".toList, Toml.string name)].map Prod.fst := by
      simp
    have hheaded : TableOrigin.headed ≠ .braced := by decide
    have hopen := Toml.surrounds_root.table hlex hheaded (openTable "extensions".toList)
      [("default_language".toList, .string name)]
    rw [Toml.openTable_of_notMem hnew] at hopen
    simp only [lexStatements, lexTable, hname, hlanguage, horigin, List.append_assoc, List.cons_append]
    rw [Toml.fill_section hlex (by simp)]
    exact Toml.fill_subsection hlex hnew hheaded hopen hnodup

theorem fill_statements (s : Settings) : fill [] [] (statements s) = some (root s) := by
  simp only [statements, List.append_assoc, List.cons_append]
  calc fill [] [] (pairs [("verbose".toList, .boolean s.verbose)] ++ (lexStatements s.lex ++
          .header ["output".toList] :: (pairs (outputEntries s.output) ++
            .header ["check".toList] :: pairs (checkEntries s.check))))
    _ = fill [] ((root s).take 1) (lexStatements s.lex ++
          .header ["output".toList] :: (pairs (outputEntries s.output) ++
            .header ["check".toList] :: pairs (checkEntries s.check))) :=
      Toml.fill_pairs Toml.surrounds_root [] (by simp)
    _ = fill ["lex".toList, "extensions".toList] ((root s).take 2)
          (.header ["output".toList] :: (pairs (outputEntries s.output) ++
            .header ["check".toList] :: pairs (checkEntries s.check))) :=
      fill_lexStatements (by simp [root]) s.lex _
    _ = fill ["output".toList] ((root s).take 3)
          (.header ["check".toList] :: (pairs (checkEntries s.check) ++ [])) := by
      rw [List.append_nil]
      exact Toml.fill_section (by simp [root]) (by simp [outputEntries])
    _ = fill ["check".toList] (root s) [] :=
      Toml.fill_section (by simp [root]) (by simp [checkEntries])
    _ = some (root s) := rfl

/-! ## Settings -/

theorem overridesFrom_of_sorted {o p : Overrides} (entries : List (Text × Text))
    (h : p.entries = o.entries ++ entries) :
    overridesFrom o (entries.map fun e => (e.1, .string e.2)) = some p := by
  induction entries generalizing o with
  | nil =>
    rw [List.append_nil] at h
    exact congrArg some (Overrides.eq_of_entries h.symm)
  | cons e entries ih =>
    have hsorted := p.sorted
    rw [h, List.pairwise_append] at hsorted
    have hput : putSorted e.1 e.2 o.entries = o.entries ++ [e] :=
      Overrides.putSorted_of_forall_precedes fun f hf => hsorted.2.2 f hf e List.mem_cons_self
    refine ih (o := o.insert e.1 e.2) ?_
    show p.entries = putSorted e.1 e.2 o.entries ++ entries
    rw [h, hput, List.append_assoc, List.singleton_append]

theorem overrides?_overrideEntries (o : Overrides) : overrides? (.table .headed (overrideEntries o)) = some o :=
  overridesFrom_of_sorted o.entries rfl

theorem sectionEntries?_table (names : List String) (origin : TableOrigin) (entries : Entries) :
    sectionEntries? names (.table origin entries) = some entries := rfl

theorem setting_of_lookup {α : Type} {entries : Entries} {name : String} (h : entries.lookup name.toList = some v)
    {default : α} {value? : Toml → Option α} : setting entries name default value? = value? v := by
  rw [setting, h]

theorem lex?_lexTable (l : LexSettings) {d : LexSettings} (hd : d.defaultLanguage = none) :
    lex? d (lexTable l) = some l := by
  have hoverrides := overrides?_overrideEntries l.overrides
  obtain ⟨language, overrides⟩ := l
  cases language with
  | none =>
    simp [lex?, lexTable, sectionEntries?_table, setting, languageEntries, hd, hoverrides, List.lookup_cons]
  | some name =>
    simp [lex?, lexTable, sectionEntries?_table, setting, languageEntries, hoverrides, List.lookup_cons, string?]

theorem output?_outputEntries (d o : OutputSettings) : output? d (.table .headed (outputEntries o)) = some o := rfl

theorem natural?_toNat {bound n : Nat} (h : n < bound) : natural? bound (.integer n) = some n := by
  rw [natural?, if_pos (by omega), Int.toNat_natCast]

theorem natural?_jobs (n : UInt32) : (natural? UInt32.size (.integer n.toNat)).map UInt32.ofNat = some n := by
  rw [natural?_toNat n.toNat_lt_size, Option.map_some, UInt32.ofNat_toNat]

theorem natural?_maxErrors (n : UInt64) : (natural? UInt64.size (.integer n.toNat)).map UInt64.ofNat = some n := by
  rw [natural?_toNat n.toNat_lt_size, Option.map_some, UInt64.ofNat_toNat]

theorem check?_checkEntries (d c : CheckSettings) : check? d (.table .headed (checkEntries c)) = some c := by
  have hjobs : (checkEntries c).lookup "jobs".toList = some (.integer c.jobs.toNat) := rfl
  have hmax : (checkEntries c).lookup "max_errors_per_file".toList = some (.integer c.maxErrors.toNat) := by
    simp [checkEntries, List.lookup_cons]
  rw [check?, sectionEntries?_table, Option.bind_eq_bind, Option.bind_some, setting_of_lookup hjobs,
    setting_of_lookup hmax, natural?_jobs, natural?_maxErrors]
  rfl

theorem ofEntries?_root (processors : UInt32) (s : Settings) : ofEntries? processors (root s) = some s := by
  have hlex : lex? (default processors).lex (lexTable s.lex) = some s.lex := lex?_lexTable s.lex rfl
  have hcheck := check?_checkEntries (default processors).check s.check
  simp [ofEntries?, setting, root, List.lookup_cons, boolean?, hlex, output?_outputEntries, hcheck]

/-- Settings are read from their document as they were written, whatever the machine. -/
theorem read_toDocument? (h : s.toDocument? = some t) (processors : UInt32) :
    (Toml.read t).bind (ofEntries? processors) = some s := by
  rw [Toml.read_of_written (written_of_toDocument? h), fill_statements, Option.bind_some, ofEntries?_root]

end Settings

end DoomLex
