/-
The check of a file reports true positions. It takes the line and the column of a fault from an index of the
file's line breaks and from the byte at which the document has the token; both index the same lines, so that the
report says in which line the token stands and how many characters stand before it there. Later tokens have later
bytes, and so later lines or, in the same line, later columns.
-/
import DoomLex.Proofs.Document.Ranges
import DoomLex.Tool.Check
import Mathlib.Data.List.Forall2

namespace DoomLex

/-! ## Tokens in their lines -/

namespace Document

/-- The tokens of faults, each with the number of its line, from zero. -/
def faultyTokens (d : Document) : List (Nat × Token) :=
  (List.range d.lineCount).flatMap fun i =>
    (((d.lineTokens? i).getD []).filter (·.kind.isError)).map fun k => (i, k)

/-- A token stands in the line of a number, behind the text `before`. -/
structure Stands (lines : List Line) (i : Nat) (before : Text) (k : Token) : Prop where
  line : ∃ p after, (placedFrom 0 lines)[i]? = some p ∧ p.2.text = before ++ k.text ++ after ∧
    k.offset = p.1 + Text.width before
  start : k.start = Text.width before

section Stands

variable {l : Language} {ts : List Text} {lines : List Line} {i i' : Nat} {before before' : Text}
  {k k' : Token}

theorem exists_stands {p : Nat × Line} (hp : (placedFrom 0 (lexLines l l.initialState ts))[i]? = some p)
    (hk : k ∈ placedTokens p) : ∃ before, Stands (lexLines l l.initialState ts) i before k := by
  obtain ⟨-, before, after, htext, hstart, hoffset⟩ :=
    split_of_mem_placedTokens l ts (List.mem_of_getElem? hp) hk
  exact ⟨before, ⟨p, after, hp, htext, hoffset⟩, hstart⟩

/-- A token behind another one stands in a later line, or in the same one behind more characters. -/
theorem Stands.lt_of_offset_lt (h : Stands lines i before k) (h' : Stands lines i' before' k')
    (hlt : k.offset < k'.offset) : i < i' ∨ i = i' ∧ before.length < before'.length := by
  obtain ⟨⟨p, after, hp, htext, hoffset⟩, -⟩ := h
  obtain ⟨⟨p', after', hp', htext', hoffset'⟩, -⟩ := h'
  rcases Nat.lt_trichotomy i i' with hi | rfl | hi
  · exact .inl hi
  · obtain rfl := Option.some.inj (hp.symm.trans hp')
    refine .inr ⟨rfl, Text.length_lt_of_width_lt (t := p.2.text) ?_ ?_ (by omega)⟩
    · exact ⟨k.text ++ after, by rw [htext, List.append_assoc]⟩
    · exact ⟨k'.text ++ after', by rw [htext', List.append_assoc]⟩
  · have hlines := lt_of_getElem?_placedFrom hi hp' hp
    have hwidth : Text.width p'.2.text = Text.width before' + Text.width k'.text + Text.width after' := by
      rw [htext', Text.width_append, Text.width_append]
    omega

theorem Stands.lineText? (h : Stands (lexLines l l.initialState ts) i before k) :
    ∃ after, (ofLines l ts).lineText? i = some (before ++ k.text ++ after) := by
  obtain ⟨⟨p, after, hp, htext, -⟩, -⟩ := h
  obtain ⟨-, hline⟩ := List.getElem?_zip_eq_some.1 hp
  refine ⟨after, ?_⟩
  rw [Document.lineText?]
  change ((lexLines l l.initialState ts)[i]?).map (·.text) = _
  rw [hline, Option.map_some, htext]

/-- The line and the column of the byte at which a token starts. -/
theorem Stands.lineColumn (name : String) {t : Text}
    (h : Stands (lexLines l l.initialState (Text.lines t)) i before k) :
    (Source.ofText name t).lineColumn k.offset = (i + 1, before.length + 1) := by
  obtain ⟨⟨p, after, hp, htext, hoffset⟩, -⟩ := h
  obtain ⟨front, back, hcontent, hstart⟩ := exists_split_of_placedFrom hp
  rw [map_text_lexLines, Text.joinLines_lines, htext] at hcontent
  rw [Nat.zero_add] at hstart
  have hstarts : (Source.ofText name t).starts =
      (startsFrom 0 (lexLines l l.initialState (Text.lines t))).toArray := Source.starts_ofText name l t
  have hline : lastStart (Source.ofText name t).starts k.offset = i := by
    rw [hstarts]
    refine lastStart_of_placedFrom hp (by omega) ?_
    rw [htext, Text.width_append, Text.width_append]
    omega
  have hfound : (Source.ofText name t).starts[i]? = some p.1 := by
    rw [hstarts, getElem?_toArray_startsFrom, hp]
    rfl
  have hstop : min k.offset (Text.width t) = k.offset := by
    rw [hcontent]
    simp only [Text.width_append]
    omega
  have hslice : Text.slice? t p.1 k.offset = some before := by
    have h := Text.slice?_append front before (k.text ++ after ++ back)
    rw [hcontent, hoffset, hstart]
    simpa using h
  rw [← hline] at hfound ⊢
  refine Source.lineColumn_of_slice hfound ?_
  show Text.slice? t p.1 (min k.offset (Text.width t)) = some before
  rw [hstop, hslice]

end Stands

/-! ## Faults -/

theorem forall₂_getElem?_range {α : Type} (xs : List α) :
    List.Forall₂ (fun x i => xs[i]? = some x) xs (List.range xs.length) := by
  refine List.forall₂_iff_get.2 ⟨by simp, fun i hi _ => ?_⟩
  simp

/-- What an entry of the check has to do with a token of a fault: it is about that token, which stands in the
line of its number. -/
def IsFault (lines : List Line) (e : Fault × Token) (x : Nat × Token) : Prop :=
  e.2 = x.2 ∧ x.2.kind.fault? = some e.1 ∧ ∃ before, Stands lines x.1 before x.2

/-- The entries of a line are about its tokens of faults. -/
theorem forall₂_faults_line {lines : List Line} {start i : Nat} {ks : List Token}
    (h : ∀ k ∈ ks, ∃ before, Stands lines i before (k.shift start)) :
    List.Forall₂ (IsFault lines)
      (ks.filterMap fun k => k.kind.fault?.map fun f => (f, k.shift start))
      (((ks.map (·.shift start)).filter (·.kind.isError)).map fun k => (i, k)) := by
  induction ks with
  | nil => exact .nil
  | cons k ks ih =>
    obtain ⟨hk, hks⟩ := List.forall_mem_cons.1 h
    have hkind : (k.shift start).kind = k.kind := rfl
    have hiff := Kind.isError_iff_fault (k := k.kind)
    cases hfault : k.kind.fault? with
    | none =>
      have hno : k.kind.isError = false := by
        rw [← Bool.not_eq_true, hiff, hfault]
        exact Bool.false_ne_true
      simp only [List.filterMap_cons, hfault, Option.map_none, List.map_cons, List.filter_cons, hkind, hno]
      exact ih hks
    | some f =>
      have hyes : k.kind.isError = true := by
        rw [hiff, hfault]
        rfl
      simp only [List.filterMap_cons, hfault, Option.map_some, List.map_cons, List.filter_cons, hkind, hyes,
        if_true]
      exact .cons ⟨rfl, hfault, hk⟩ (ih hks)

/-- The check finds the tokens of faults, in the same order. -/
theorem forall₂_faults (l : Language) (ts : List Text) :
    List.Forall₂ (IsFault (lexLines l l.initialState ts)) (Check.faults (ofLines l ts))
      (ofLines l ts).faultyTokens := by
  have hplaced := forall₂_getElem?_range (ofLines l ts).placed
  rw [ofLines, length_placed_index] at hplaced
  refine List.rel_flatMap hplaced fun p i hp => ?_
  have htokens : (ofLines l ts).lineTokens? i = some (placedTokens p) := by
    rw [lineTokens?, ofLines, hp]
    rfl
  show List.Forall₂ _ _ ((((ofLines l ts).lineTokens? i).getD []).filter _ |>.map _)
  rw [htokens]
  refine forall₂_faults_line fun k hk => ?_
  exact exists_stands hp (List.mem_map_of_mem hk)

theorem pairwise_faultyTokens (l : Language) {ts : List Text} (h : ts ≠ []) :
    (ofLines l ts).faultyTokens.Pairwise fun x y => x.2.offset < y.2.offset := by
  have hmap : (ofLines l ts).faultyTokens.map (·.2) = (ofLines l ts).tokens.filter (·.kind.isError) := by
    simp [faultyTokens, tokens, List.map_flatMap, List.filter_flatMap, Function.comp_def]
  have hpairwise : ((ofLines l ts).faultyTokens.map (·.2)).Pairwise fun a b => a.offset < b.offset := by
    rw [hmap]
    exact (pairwise_listing l h).sublist (List.filter_sublist.trans (tokens_sublist_listing _))
  rwa [List.pairwise_map] at hpairwise

end Document

/-! ## Reports -/

/-- A report of a fault that points at a token of a document, in the line of the number. -/
structure Diagnostic.PointsAt (g : Diagnostic) (d : Document) (i : Nat) (k : Token) : Prop where
  line : g.line = i + 1
  column : ∃ before after, d.lineText? i = some (before ++ k.text ++ after) ∧ Text.width before = k.start ∧
    g.column = before.length + 1
  fault : k.kind.fault? = some g.fault
  message : k.kind.fault?.map Fault.message = some g.message
  text : g.text = k.text

/-- Reports of faults in the order of their places. -/
def Diagnostic.Before (g g' : Diagnostic) : Prop := g.line < g'.line ∨ g.line = g'.line ∧ g.column < g'.column

/-- A report of a file that points at the first tokens of faults of its text, up to a limit, and counts all. -/
structure FileReport.PointsAtFaults (C : FileReport) (limit : Nat) (l : Language) (t : Text) : Prop where
  count : C.faultCount = (Document.ofText l t).faultyTokens.length
  length : C.diagnostics.length = min limit C.faultCount
  points : List.Forall₂ (fun g x => g.PointsAt (Document.ofText l t) x.1 x.2) C.diagnostics
    ((Document.ofText l t).faultyTokens.take limit)
  ascending : C.diagnostics.Pairwise Diagnostic.Before
  text : ∀ g ∈ C.diagnostics, 1 ≤ g.line ∧ 1 ≤ g.column ∧
    ∃ line, (Text.lines t)[g.line - 1]? = some line ∧ g.text <+: line.drop (g.column - 1)
  hidden : C.diagnostics.length ≤ C.faultCount

section Reports

open Document

variable {g g' : Diagnostic} {x x' : Nat × Token} {l : Language} {t : Text}

/-- A report of a fault whose token stands behind as many characters of its line as the column tells. -/
def Diagnostic.Locates (g : Diagnostic) (lines : List Line) (x : Nat × Token) : Prop :=
  ∃ before, Stands lines x.1 before x.2 ∧ x.2.kind.fault? = some g.fault ∧
    g.line = x.1 + 1 ∧ g.column = before.length + 1 ∧ g.text = x.2.text

namespace Diagnostic

theorem Locates.pointsAt (h : g.Locates (lexLines l l.initialState (Text.lines t)) x) :
    g.PointsAt (ofText l t) x.1 x.2 := by
  obtain ⟨before, hstands, hfault, hline, hcolumn, htext⟩ := h
  obtain ⟨after, hlineText⟩ := hstands.lineText?
  have hmessage : x.2.kind.fault?.map Fault.message = some g.message := by
    rw [hfault]
    rfl
  exact ⟨hline, ⟨before, after, hlineText, hstands.start.symm, hcolumn⟩, hfault, hmessage, htext⟩

theorem Locates.before {lines : List Line} (h : g.Locates lines x) (h' : g'.Locates lines x')
    (hlt : x.2.offset < x'.2.offset) : g.Before g' := by
  obtain ⟨before, hstands, -, hline, hcolumn, -⟩ := h
  obtain ⟨before', hstands', -, hline', hcolumn', -⟩ := h'
  unfold Before
  rcases hstands.lt_of_offset_lt hstands' hlt with hi | ⟨hi, hlength⟩ <;> omega

/-- The text of the line reported, from the column reported on, starts with the text reported. -/
theorem PointsAt.text_prefix {i : Nat} {k : Token} (h : g.PointsAt (ofText l t) i k) :
    1 ≤ g.line ∧ 1 ≤ g.column ∧
      ∃ line, (Text.lines t)[g.line - 1]? = some line ∧ g.text <+: line.drop (g.column - 1) := by
  obtain ⟨before, after, hlineText, -, hcolumn⟩ := h.column
  have htexts : (ofText l t).lineText? i = (Text.lines t)[i]? := by
    have hmap := map_text_lexLines l l.initialState (Text.lines t)
    rw [← hmap, List.getElem?_map]
    rfl
  rw [h.line, hcolumn]
  refine ⟨by omega, by omega, before ++ k.text ++ after, ?_, after, ?_⟩
  · rw [Nat.add_sub_cancel, ← htexts, hlineText]
  · rw [h.text, Nat.add_sub_cancel, List.append_assoc, List.drop_left]

end Diagnostic

namespace Check

theorem forall₂_locates (limit : Nat) (p : Path) (l : Language) (t : Text) :
    List.Forall₂ (·.Locates (lexLines l l.initialState (Text.lines t))) (ofText limit p l t).diagnostics
      ((Document.ofText l t).faultyTokens.take limit) := by
  have hfaults := List.forall₂_take limit (forall₂_faults l (Text.lines t))
  refine List.forall₂_map_left_iff.2 (hfaults.imp fun e x h => ?_)
  obtain ⟨hk, hfault, before, hstands⟩ := h
  refine ⟨before, hstands, hfault, ?_⟩
  simp only [diagnostic, hk, hstands.lineColumn, and_self]

theorem pointsAtFaults_ofText (limit : Nat) (p : Path) (l : Language) (t : Text) :
    (ofText limit p l t).PointsAtFaults limit l t := by
  have hlocates := forall₂_locates limit p l t
  have hcount : (ofText limit p l t).faultCount = (Document.ofText l t).faultyTokens.length :=
    (forall₂_faults l (Text.lines t)).length_eq
  have hlength : (ofText limit p l t).diagnostics.length = min limit (ofText limit p l t).faultCount := by
    rw [hlocates.length_eq, List.length_take, hcount]
  have hpoints := hlocates.imp fun _ _ h => h.pointsAt
  refine ⟨hcount, hlength, hpoints, ?_, ?_, by omega⟩
  · -- the tokens come in the order of their bytes
    obtain ⟨hsame, hget⟩ := List.forall₂_iff_get.1 hlocates
    have hoffsets := (pairwise_faultyTokens l (Text.lines_ne_nil t)).sublist (List.take_sublist limit _)
    refine List.pairwise_iff_getElem.2 fun i j hi hj hij => ?_
    refine (hget i hi (hsame ▸ hi)).before (hget j hj (hsame ▸ hj)) ?_
    exact List.pairwise_iff_getElem.1 hoffsets i j _ _ hij
  · exact ((List.forall₂_and_left _ _).1 (hpoints.imp fun _ _ h => ⟨h.text_prefix, h⟩)).1

end Check

/-- Whatever the file says and however many faults are to be reported: the check counts all tokens of faults of
the document, and reports the first ones, each with the number of its line, the number of the character at which
it starts there, its fault, what is wrong in words, and its text. The places reported come in order, and from each
of them on the file has the text reported. -/
theorem faults_reported_in_place {fs : FileTree} {s : Settings} {language : Option Text} {p : Path}
    {l : Language} {t : Text} (hl : s.lex.resolve language p = .ok l) (ht : fs.readSource p = .ok t) :
    ∃ C, Check.ofFile fs s language p = .ok C ∧ C.PointsAtFaults s.check.maxErrors.toNat l t := by
  refine ⟨Check.ofText s.check.maxErrors.toNat p l t, ?_, Check.pointsAtFaults_ofText _ p l t⟩
  rw [Check.ofFile, hl, ht]

end Reports

example : (Check.ofText 2 ⟨"a.dh".toList⟩ .decoHack "é 0x,\r\n\n\t\"ü".toList).diagnostics =
    [⟨1, 3, .malformedNumber, "0x".toList⟩, ⟨3, 2, .unterminatedString, "\"ü".toList⟩] := by decide +kernel

/-- Faults behind letters of two bytes, a carriage return and an empty line. -/
theorem faults_reported_in_place_letters :
    let p : Path := ⟨"a.dh".toList⟩
    let t : Text := "é 0x,\r\n\n\t\"ü".toList
    let fs : FileTree := ⟨[], [([p.spelling], .file (.text t))]⟩
    let s : Settings := .default 4
    s.lex.resolve none p = .ok .decoHack ∧ fs.readSource p = .ok t ∧
      ∃ C, Check.ofFile fs s none p = .ok C ∧ C.PointsAtFaults s.check.maxErrors.toNat .decoHack t := by
  intro p t fs s
  have hl : s.lex.resolve none p = .ok .decoHack := rfl
  have ht : fs.readSource p = .ok t := rfl
  exact ⟨hl, ht, faults_reported_in_place hl ht⟩

end DoomLex
