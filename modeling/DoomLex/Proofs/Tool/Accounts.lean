/-
A check gives an account of all its files. Its workers look at each of them by itself, and in whatever order they come
to the files, what they find is in the order of the files. A file has a report, or it is counted as failed because its
language cannot be told or its text cannot be read. So the reports are those that the files have when they are checked
alone, and the totals and the lines that are written follow from them.
-/
import DoomLex.Proofs.Tool.Collection
import DoomLex.Proofs.Tool.Diagnostics
import DoomLex.Proofs.Tool.Workers
import DoomLex.Tool.Check

namespace DoomLex

namespace Check

instance decidableExistsError {ε α : Type} (x : Except ε α) : Decidable (∃ e, x = .error e) :=
  match x with
  | .error e => .isTrue ⟨e, rfl⟩
  | .ok _ => .isFalse fun ⟨_, h⟩ => by cases h

section Files

variable {fs fs' : FileTree} {s : Settings} {o : CheckOptions} {language : Option Text} {form : ReportForm}
  {inputs files : List Path} {p : Path} {r : FileReport} {g : Diagnostic} {pool : WorkerPool} {limit : Nat}

/-! ## Files that fail -/

/-- A file whose language cannot be told, or that cannot be read as a text. -/
def Fails (fs : FileTree) (s : Settings) (language : Option Text) (p : Path) : Prop :=
  (∃ e, s.lex.resolve language p = .error e) ∨ ∃ fault, fs.read p = .error fault

instance decidableFails : DecidablePred (Fails fs s language) := fun p =>
  inferInstanceAs (Decidable ((∃ e, s.lex.resolve language p = .error e) ∨ ∃ fault, fs.read p = .error fault))

theorem fails_iff : Fails fs s language p ↔ ∃ e, ofFile fs s language p = .error e := by
  unfold Fails ofFile FileTree.readSource
  cases s.lex.resolve language p with
  | error e => simp
  | ok l => cases fs.read p <;> simp

theorem not_fails_iff : ¬ Fails fs s language p ↔ ∃ r, ofFile fs s language p = .ok r := by
  rw [fails_iff]
  cases ofFile fs s language p <;> simp

/-! ## Reports of files -/

/-- The results of files, each looked at by itself. -/
def oneByOne (fs : FileTree) (s : Settings) (language : Option Text) (files : List Path) : Results :=
  files.map fun p => (p, ofFile fs s language p)

theorem oneByOne_cons (p : Path) (files : List Path) :
    oneByOne fs s language (p :: files) = (p, ofFile fs s language p) :: oneByOne fs s language files := rfl

/-- The files that do not fail have their reports, in the same order. -/
theorem forall₂_reports (files : List Path) :
    List.Forall₂ (fun p r => ofFile fs s language p = .ok r)
      (files.filter fun p => ¬ Fails fs s language p) (reports (oneByOne fs s language files)) := by
  induction files with
  | nil => exact .nil
  | cons p files ih =>
    rw [oneByOne_cons, reports, List.filterMap_cons]
    by_cases hfails : Fails fs s language p
    · obtain ⟨e, he⟩ := fails_iff.1 hfails
      rw [List.filter_cons_of_neg (by simpa using hfails), he]
      exact ih
    · obtain ⟨r, hr⟩ := not_fails_iff.1 hfails
      rw [List.filter_cons_of_pos (by simpa using hfails), hr]
      exact .cons hr ih

theorem map_failures (files : List Path) :
    (failures (oneByOne fs s language files)).map (·.1) = files.filter fun p => Fails fs s language p := by
  induction files with
  | nil => rfl
  | cons p files ih =>
    rw [oneByOne_cons, failures, List.filterMap_cons]
    by_cases hfails : Fails fs s language p
    · obtain ⟨e, he⟩ := fails_iff.1 hfails
      rw [List.filter_cons_of_pos (by simpa using hfails), he]
      exact congrArg (p :: ·) ih
    · obtain ⟨r, hr⟩ := not_fails_iff.1 hfails
      rw [List.filter_cons_of_neg (by simpa using hfails), hr]
      exact ih

theorem exists_of_mem_reports (h : r ∈ reports (oneByOne fs s language files)) :
    ∃ p ∈ files, ofFile fs s language p = .ok r := by
  obtain ⟨e, he, hr⟩ := List.mem_filterMap.1 h
  obtain ⟨p, hp, rfl⟩ := List.mem_map.1 he
  refine ⟨p, hp, ?_⟩
  cases hfile : ofFile fs s language p with
  | error e => simp [hfile] at hr
  | ok r' => simpa [hfile] using hr

/-- The report of a file is that of a text. -/
theorem exists_eq_ofText (h : ofFile fs s language p = .ok r) :
    ∃ l t, r = ofText s.check.maxErrors.toNat p l t := by
  unfold ofFile at h
  split at h
  · cases h
  · split at h
    · cases h
    · exact ⟨_, _, (Except.ok.inj h).symm⟩

theorem length_diagnostics (h : ofFile fs s language p = .ok r) :
    r.diagnostics.length = min s.check.maxErrors.toNat r.faultCount := by
  obtain ⟨l, t, rfl⟩ := exists_eq_ofText h
  exact (pointsAtFaults_ofText _ p l t).length

theorem file_eq (h : ofFile fs s language p = .ok r) : r.file = p := by
  obtain ⟨l, t, rfl⟩ := exists_eq_ofText h
  rfl

/-- What a report quotes stands in one line of the file. -/
theorem newline_notMem_text (h : ofFile fs s language p = .ok r) (hg : g ∈ r.diagnostics) : '\n' ∉ g.text := by
  obtain ⟨l, t, rfl⟩ := exists_eq_ofText h
  obtain ⟨-, -, line, hline, hstarts⟩ := (pointsAtFaults_ofText _ p l t).text g hg
  intro hmem
  exact Text.newline_notMem_of_mem_lines (List.mem_of_getElem? hline) (List.mem_of_mem_drop (hstarts.mem hmem))

/-! ## Results of a check -/

/-- Once the workers are started, a check gives the results of its files looked at one by one. -/
theorem ofFiles_eq (hpool : pool.fault? (workers s o) = none) (files : List Path) :
    ofFiles fs s o files pool = .ok (oneByOne fs s o.language files) := by
  simp only [ofFiles, hpool, WorkerPool.map_eq, oneByOne]

theorem results_eq (hform : ReportForm.resolve o.format s.output.format = .ok form)
    (hfiles : fs.collect s.lex inputs = .ok files) (hpool : pool.fault? (workers s o) = none) :
    results fs s o inputs pool = .ok (form, oneByOne fs s o.language files) := by
  simp only [results, hform, hfiles, ofFiles_eq hpool]

theorem run_eq (hform : ReportForm.resolve o.format s.output.format = .ok form)
    (hfiles : fs.collect s.lex inputs = .ok files) (hpool : pool.fault? (workers s o) = none) :
    run fs s o inputs pool = .ok (render form (reports (oneByOne fs s o.language files)),
      summary (oneByOne fs s o.language files)) := by
  rw [run, results_eq hform hfiles hpool]

theorem run_eq_noWorkers {reason : Text} (hform : ReportForm.resolve o.format s.output.format = .ok form)
    (hfiles : fs.collect s.lex inputs = .ok files) (hpool : pool.fault? (workers s o) = some reason) :
    run fs s o inputs pool = .error (.noWorkers reason) := by
  simp only [run, results, hform, hfiles, ofFiles, hpool]

/-! ## A file alone -/

theorem collect_singleton (lex : LexSettings) (h : fs.isFile p = true) : fs.collect lex [p] = .ok [p] :=
  FileTree.collect_of_ascending (List.cons_ne_nil p []) (fun _ hq => List.mem_singleton.1 hq ▸ h)
    (List.pairwise_singleton _ p)

theorem results_singleton (hform : ReportForm.resolve o.format s.output.format = .ok form)
    (hpool : pool.fault? (workers s o) = none) (h : fs.isFile p = true) :
    results fs s o [p] pool = .ok (form, [(p, ofFile fs s o.language p)]) :=
  results_eq hform (collect_singleton s.lex h) hpool

theorem isFile_congr (h : fs'.look p = fs.look p) : fs'.isFile p = fs.isFile p := by
  rw [FileTree.isFile, FileTree.isFile, h]

/-- The report of a file depends on nothing else in the tree. -/
theorem ofFile_congr (h : fs'.look p = fs.look p) : ofFile fs' s language p = ofFile fs s language p := by
  have hread : fs'.read p = fs.read p := by rw [FileTree.read, FileTree.read, h]
  rw [ofFile, ofFile, FileTree.readSource, FileTree.readSource, hread]

/-! ## Lines of reports -/

/-- The line on a fault: the file, the line and the column in it, what is wrong and the text at fault, with a colon
between each two. -/
def faultLine (file : Path) (g : Diagnostic) : Text :=
  [':'].intercalate [file.spelling, Text.numeral g.line, Text.numeral g.column, ' ' :: g.fault.message.toList,
    ' ' :: g.text]

/-- The line that counts the faults on which there is none. -/
def othersLine (file : Path) (others : Nat) : Text :=
  [':'].intercalate [file.spelling, ' ' :: Text.numeral others ++ " more error token(s)".toList]

/-- Lines that tell of a report: one on each of its faults up to a limit, and one more that counts the others, if there
are any. -/
structure Tells (limit : Nat) (r : FileReport) (lines : List Text) : Prop where
  count : lines.length = min limit r.faultCount + if limit < r.faultCount then 1 else 0
  faults : lines.take limit = r.diagnostics.map (faultLine r.file)
  others : limit < r.faultCount → lines[limit]? = some (othersLine r.file (r.faultCount - limit))

theorem newline_notMem_numeral (n : Nat) : '\n' ∉ Text.numeral n := fun h => by
  have hdigit := Nat.isDigit_of_mem_toDigits (by decide) (by decide) h
  exact absurd hdigit (by decide)

theorem newline_notMem_message (f : Fault) : '\n' ∉ f.message.toList := by
  cases f <;> decide

theorem newline_notMem_faultLine (hfile : '\n' ∉ p.spelling) (htext : '\n' ∉ g.text) : '\n' ∉ faultLine p g := by
  simp [faultLine, List.intercalate, newline_notMem_numeral, newline_notMem_message, hfile, htext]

theorem newline_notMem_othersLine (hfile : '\n' ∉ p.spelling) (others : Nat) : '\n' ∉ othersLine p others := by
  simp [othersLine, List.intercalate, newline_notMem_numeral, hfile]

/-- The lines on a report. -/
def linesOf (limit : Nat) (r : FileReport) : List Text :=
  r.diagnostics.map (faultLine r.file) ++
    if limit < r.faultCount then [othersLine r.file (r.faultCount - limit)] else []

theorem tells_linesOf (h : r.diagnostics.length = min limit r.faultCount) : Tells limit r (linesOf limit r) := by
  unfold linesOf
  by_cases hlt : limit < r.faultCount
  · have hlength : (r.diagnostics.map (faultLine r.file)).length = limit := by
      rw [List.length_map]
      omega
    rw [if_pos hlt]
    refine ⟨?_, ?_, fun _ => ?_⟩
    · rw [List.length_append, List.length_map, h, if_pos hlt, List.length_singleton]
    · rw [List.take_left' hlength]
    · rw [List.getElem?_append_right (by omega), hlength, Nat.sub_self]
      rfl
  · rw [if_neg hlt, List.append_nil]
    refine ⟨?_, ?_, fun hlt' => absurd hlt' hlt⟩
    · rw [List.length_map, h, if_neg hlt, Nat.add_zero]
    · rw [List.take_of_length_le]
      rw [List.length_map]
      omega

theorem newline_notMem_of_mem_linesOf (hfile : '\n' ∉ r.file.spelling) (htext : ∀ g ∈ r.diagnostics, '\n' ∉ g.text) :
    ∀ line ∈ linesOf limit r, '\n' ∉ line := by
  intro line hline
  rcases List.mem_append.1 hline with hfault | hothers
  · obtain ⟨g, hg, rfl⟩ := List.mem_map.1 hfault
    exact newline_notMem_faultLine hfile (htext g hg)
  · split at hothers
    · rw [List.mem_singleton.1 hothers]
      exact newline_notMem_othersLine hfile _
    · cases hothers

theorem diagnosticLine_eq (file : Path) (g : Diagnostic) : diagnosticLine file g = faultLine file g ++ ['\n'] := by
  simp [diagnosticLine, Diagnostic.message, faultLine, List.intercalate]

theorem hiddenLine_eq (h : r.diagnostics.length = min limit r.faultCount) :
    hiddenLine r = if limit < r.faultCount then othersLine r.file (r.faultCount - limit) ++ ['\n'] else [] := by
  have hhidden : r.faultCount - r.diagnostics.length = r.faultCount - limit := by omega
  have hend : " more error token(s)\n".toList = " more error token(s)".toList ++ ['\n'] := by decide
  simp only [hiddenLine, hhidden, Nat.sub_pos_iff_lt, hend]
  split
  · simp [othersLine, List.intercalate]
  · rfl

theorem fileText_eq (h : r.diagnostics.length = min limit r.faultCount) :
    fileText r = (linesOf limit r).flatMap (· ++ ['\n']) := by
  rw [fileText, hiddenLine_eq h, linesOf, List.flatMap_append, List.flatMap_map, funext (diagnosticLine_eq r.file)]
  congr 1
  split
  · exact (List.flatMap_singleton ..).symm
  · rfl

theorem render_text {rs : List FileReport} (h : ∀ r ∈ rs, r.diagnostics.length = min limit r.faultCount) :
    render .text rs = (rs.map (linesOf limit)).flatten.flatMap (· ++ ['\n']) := by
  show rs.flatMap fileText = _
  induction rs with
  | nil => rfl
  | cons r rs ih =>
    obtain ⟨hr, hrs⟩ := List.forall_mem_cons.1 h
    rw [List.flatMap_cons, List.map_cons, List.flatten_cons, List.flatMap_append, fileText_eq hr, ih hrs]

end Files

/-! ## Accounts -/

/-- Reports and totals that give an account of files: every file has the report that it has alone, in the same
order, or is counted as failed, and the faults are those of all reports, whether they are told one by one or
not. -/
structure AccountsFor (fs : FileTree) (s : Settings) (o : CheckOptions) (form : ReportForm) (pool : WorkerPool)
    (files : List Path) (rs : List FileReport) (summary : CheckSummary) : Prop where
  count : summary.files + summary.failed = files.length
  failed : summary.failed = (files.filter fun p => Fails fs s o.language p).length
  reports : List.Forall₂ (fun p r => results fs s o [p] pool = .ok (form, [(p, .ok r)]))
    (files.filter fun p => ¬ Fails fs s o.language p) rs
  faults : summary.faults = total (·.faultCount) rs
  diagnostics : ∀ r ∈ rs, r.diagnostics.length = min s.check.maxErrors.toNat r.faultCount

/-- A text that tells of reports, of each in lines of its own. It has no other lines if no file has a line break in its
name. -/
structure TellsAll (limit : Nat) (files : List Path) (rs : List FileReport) (t : Text) (told : List (List Text)) :
    Prop where
  reports : List.Forall₂ (Tells limit) rs told
  text : t = told.flatten.flatMap (· ++ ['\n'])
  lines : (∀ p ∈ files, '\n' ∉ p.spelling) → Text.lines t = told.flatten ++ [[]]

section Accounts

variable {fs : FileTree} {s : Settings} {o : CheckOptions} {form : ReportForm} {files : List Path} {pool : WorkerPool}

theorem accountsFor_oneByOne (hform : ReportForm.resolve o.format s.output.format = .ok form)
    (hpool : pool.fault? (workers s o) = none) (hfiles : ∀ p ∈ files, fs.isFile p = true) :
    AccountsFor fs s o form pool files (reports (oneByOne fs s o.language files))
      (summary (oneByOne fs s o.language files)) := by
  have hreports : List.Forall₂ (fun p r => ofFile fs s o.language p = .ok r) _ _ := forall₂_reports files
  have hfailed : (failures (oneByOne fs s o.language files)).length =
      (files.filter fun p => Fails fs s o.language p).length := by
    rw [← map_failures, List.length_map]
  have hdone : (reports (oneByOne fs s o.language files)).length =
      (files.filter fun p => ¬ Fails fs s o.language p).length := hreports.length_eq.symm
  refine ⟨?_, hfailed, ?_, rfl, ?_⟩
  · have hsplit := List.length_eq_length_filter_add (l := files) fun p => decide (Fails fs s o.language p)
    simp only [decide_not] at hdone
    rw [summary, hdone, hfailed, hsplit, Nat.add_comm]
  · have halone := (List.forall₂_and_left (p := fun p => fs.isFile p = true) _ _).2
      ⟨fun p hp => hfiles p (List.mem_filter.1 hp).1, hreports⟩
    refine halone.imp fun p r h => ?_
    rw [results_singleton hform hpool h.1, h.2]
  · intro r hr
    obtain ⟨p, -, hp⟩ := exists_of_mem_reports hr
    exact length_diagnostics hp

theorem tellsAll_oneByOne (files : List Path) :
    ∃ told, TellsAll s.check.maxErrors.toNat files (reports (oneByOne fs s o.language files))
      (render .text (reports (oneByOne fs s o.language files))) told := by
  have hfile : ∀ r ∈ reports (oneByOne fs s o.language files), ∃ p ∈ files, ofFile fs s o.language p = .ok r :=
    fun r hr => exists_of_mem_reports hr
  have htext := render_text fun r hr => length_diagnostics (hfile r hr).choose_spec.2
  refine ⟨_, ?_, htext, fun hnames => ?_⟩
  · refine List.forall₂_map_right_iff.2 (List.forall₂_same.2 fun r hr => ?_)
    obtain ⟨p, -, hp⟩ := hfile r hr
    exact tells_linesOf (length_diagnostics hp)
  · rw [htext]
    refine Text.lines_flatMap_newline fun line hline => ?_
    obtain ⟨_, hlines, hmem⟩ := List.mem_flatten.1 hline
    obtain ⟨r, hr, rfl⟩ := List.mem_map.1 hlines
    obtain ⟨p, hp, hreport⟩ := hfile r hr
    refine newline_notMem_of_mem_linesOf ?_ (fun g hg => newline_notMem_text hreport hg) line hmem
    rw [file_eq hreport]
    exact hnames p hp

theorem exists_conclude_eq_error_iff (summary : CheckSummary) :
    (∃ e, conclude summary = .error e) ↔ 0 < summary.faults ∨ 0 < summary.failed := by
  rw [conclude]
  split
  · rename_i hfaults
    exact ⟨fun _ => hfaults, fun _ => ⟨_, rfl⟩⟩
  · rename_i hnone
    exact ⟨fun ⟨_, h⟩ => (nomatch h), fun h => absurd h hnone⟩

end Accounts

end Check

open Check in
/-- A check that knows the form of its report and its files gives an account of them, if its workers can be started;
otherwise it fails for that. As many files as there are have a report or are counted as failed, those that fail being
the ones whose language cannot be told or that cannot be read as a text; the reports come in the order of the files,
each as the check of its file alone gives it, whatever else the tree has, and whatever workers take the files in
whatever order; and the totals count all faults. Reports for people have a line on each fault up to the limit, and one
more that counts the others, if there are any. The check fails exactly if there is a fault or a file failed. -/
theorem check_accounts {fs : FileTree} {s : Settings} {o : CheckOptions} {form : ReportForm}
    {inputs files : List Path} (hform : ReportForm.resolve o.format s.output.format = .ok form)
    (hfiles : fs.collect s.lex inputs = .ok files) (pool : WorkerPool) :
    match pool.fault? (workers s o) with
    | some reason => run fs s o inputs pool = .error (.noWorkers reason)
    | none =>
      ∃ rs summary, run fs s o inputs pool = .ok (render form rs, summary) ∧
        AccountsFor fs s o form pool files rs summary ∧
        (∀ p ∈ files, ∀ fs' : FileTree, fs'.look p = fs.look p →
          results fs' s o [p] pool = results fs s o [p] pool) ∧
        (∀ (jobs : UInt32) (jobs' : Option UInt32) (pool' : WorkerPool),
          let s' : Settings := { s with check := { s.check with jobs := jobs } }
          let o' : CheckOptions := { o with jobs := jobs' }
          pool'.fault? (workers s' o') = none → run fs s' o' inputs pool' = run fs s o inputs pool) ∧
        (form = .text → ∃ told, TellsAll s.check.maxErrors.toNat files rs (render form rs) told) ∧
        ((∃ e, conclude summary = .error e) ↔ 0 < summary.faults ∨ 0 < summary.failed) := by
  split
  · rename_i reason hpool
    exact run_eq_noWorkers hform hfiles hpool
  · rename_i hpool
    have hisFile : ∀ p ∈ files, fs.isFile p = true := fun p hp =>
      ((FileTree.canonical_of_collect hfiles).selected p hp).isFile
    refine ⟨_, _, run_eq hform hfiles hpool, accountsFor_oneByOne hform hpool hisFile, ?_, ?_, ?_,
      exists_conclude_eq_error_iff _⟩
    · intro p hp fs' hlook
      have hfile' : fs'.isFile p = true := (isFile_congr hlook).trans (hisFile p hp)
      rw [results_singleton hform hpool hfile', results_singleton hform hpool (hisFile p hp), ofFile_congr hlook]
    · intro jobs jobs' pool' s' o' hpool'
      have hform' : ReportForm.resolve o'.format s'.output.format = .ok form := hform
      have hfiles' : fs.collect s'.lex inputs = .ok files := hfiles
      -- a report reads no number of jobs
      have hsame : oneByOne fs s' o'.language files = oneByOne fs s o.language files := rfl
      rw [run_eq hform' hfiles' hpool', hsame, run_eq hform hfiles hpool]
    · rintro rfl
      exact tellsAll_oneByOne files

example : Check.render .text [Check.ofText 1 ⟨"a.dh".toList⟩ .decoHack "é 0x \"".toList] =
    "a.dh:1:3: malformed number: 0x\na.dh: 1 more error token(s)\n".toList := by decide +kernel

/-- A directory with a file of two faults, of which one is reported, and one that is no text, and beside it a
file whose language nothing tells; the workers take the files backwards. -/
theorem check_accounts_failures :
    let fs : FileTree := ⟨[], [(["b.dh".toList], .file (.binary [255])), (["c".toList], .file (.text [])),
      (["a.dh".toList], .file (.text "0x \"".toList))]⟩
    let s : Settings := { Settings.default 4 with check := ⟨4, 1⟩ }
    let o : CheckOptions := ⟨none, none, none⟩
    let inputs := ["c", "."].map Path.ofString
    let files := ["./a.dh", "./b.dh", "c"].map Path.ofString
    let pool : WorkerPool := ⟨fun _ => none, fun _ n => (List.range n).reverse, fun _ _ => List.reverse_perm _⟩
    ReportForm.resolve o.format s.output.format = .ok .text ∧ fs.collect s.lex inputs = .ok files ∧
      ∃ rs summary, Check.run fs s o inputs pool = .ok (Check.render .text rs, summary) ∧
        Check.AccountsFor fs s o .text pool files rs summary ∧
        (∃ told, Check.TellsAll 1 files rs (Check.render .text rs) told) ∧
        ((∃ e, Check.conclude summary = .error e) ↔ 0 < summary.faults ∨ 0 < summary.failed) := by
  intro fs s o inputs files pool
  have hform : ReportForm.resolve o.format s.output.format = .ok .text := rfl
  have hexpand : fs.expandAll s.lex inputs = .ok (["c", "./b.dh", "./a.dh"].map Path.ofString) := rfl
  have hascending : Path.Ascending files := by
    unfold Path.Ascending
    decide
  have harrange : Path.arrange (["c", "./b.dh", "./a.dh"].map Path.ofString) = files :=
    Path.arrange_of_perm (by decide) hascending
  have hne : inputs ≠ [] := List.cons_ne_nil _ _
  have hfiles : fs.collect s.lex inputs = .ok files := by
    rw [FileTree.collect, if_neg hne, hexpand, ← harrange]
  obtain ⟨rs, summary, hrun, haccounts, -, -, htold, hconclude⟩ := check_accounts hform hfiles pool
  exact ⟨hform, hfiles, rs, summary, hrun, haccounts, htold rfl, hconclude⟩

end DoomLex
