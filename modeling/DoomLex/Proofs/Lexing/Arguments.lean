/-
Arguments are split out of merge scripts. The invariant of the scan tells the region of the line in which it
stands, what the pending run is part of and what the run is like: digits, the rest of a word, so much of an
argument, or a literal with all its dollar signs escaped unless it is bad. Each answer of the machine keeps the
invariant, and each run that ends is split out by it.
-/
import DoomLex.Proofs.Lexing.ArgumentForms
import DoomLex.Proofs.Text.Words

namespace DoomLex

namespace MergeScript

/-! ## The invariant of the scan -/

namespace Scan

/-- What the place at which the scan stands lies in. -/
def region : Scan → Region
  | neutral | blank => .outside
  | comment => .comment
  | word | decimal | argument .word _ => .word
  | literal q => .literal q.takes
  | argument .literal _ => .literal false

/-- What the pending characters are part of. -/
def part : Scan → Part
  | neutral | blank => .blank
  | comment => .comment
  | word | decimal | argument .word _ => .word
  | literal _ | argument .literal _ => .literal

/-- What the pending run is like. -/
def Holds (before : Text) : Scan → Text → Prop
  | neutral, run => run = []
  | blank, _ | comment, _ => True
  | word, run => (∀ c ∈ run, c ≠ '$' ∧ Text.isBlank c = false) ∧ ∃ c ∈ run, Text.isDigit c = false
  | decimal, run => run ≠ [] ∧ ∀ c ∈ run, Text.isDigit c = true
  | literal q, run =>
    q.spoilt = false → run.Along fun u c => c = '$' → regionAfter (before ++ u) = .literal true
  | argument _ a, run => a.Spells run

end Scan

/-- What the scan knows between two characters. -/
structure Inv (before : Text) (s : Scan) (run : Text) : Prop where
  region : regionAfter (before ++ run) = s.region
  parts : run.Along fun u c => (regionAfter (before ++ u)).part c = s.part
  starts : run.Along fun u c => regionAfter (before ++ u) = .outside → Text.isBlank c = false → u = []
  holds : s.Holds before run

section Steps

variable {before run after : Text} {s s' : Scan} {c : Char} {kind : Kind}

theorem inv_nil (hregion : regionAfter before = s.region) (hholds : s.Holds before []) : Inv before s [] := by
  refine ⟨?_, Text.along_nil, Text.along_nil, hholds⟩
  rwa [List.append_nil]

/-- A character that starts a run. -/
theorem inv_singleton (hpart : (regionAfter before).part c = s.part)
    (hnext : (regionAfter before).next c = s.region) (hholds : s.Holds before [c]) : Inv before s [c] := by
  have hnil : (regionAfter (before ++ [])).part c = s.part := by rwa [List.append_nil]
  refine ⟨?_, ?_, ?_, hholds⟩
  · rwa [regionAfter_concat]
  · exact Text.along_concat.2 ⟨Text.along_nil, hnil⟩
  · exact Text.along_concat.2 ⟨Text.along_nil, fun _ _ => rfl⟩

/-- A character that goes on with a run. -/
theorem Inv.concat (h : Inv before s run) (hsame : s'.part = s.part) (hpart : s.region.part c = s.part)
    (hstart : s.region = .outside → Text.isBlank c = true) (hnext : s.region.next c = s'.region)
    (hholds : s'.Holds before (run ++ [c])) : Inv before s' (run ++ [c]) := by
  refine ⟨?_, ?_, ?_, hholds⟩
  · rw [← List.append_assoc, regionAfter_concat, h.region, hnext]
  · rw [hsame]
    refine Text.along_concat.2 ⟨h.parts, ?_⟩
    rw [h.region, hpart]
  · refine Text.along_concat.2 ⟨h.starts, ?_⟩
    intro hregion hblank
    rw [h.region] at hregion
    rw [hstart hregion] at hblank
    cases hblank

theorem inv_sigil (host : Host) (hregion : regionAfter before = (Scan.argument host .sigil).region) :
    Inv before (.argument host .sigil) ['$'] := by
  refine inv_singleton ?_ ?_ rfl <;> (rw [hregion]; cases host <;> rfl)

/-! ## Tokens by the invariant -/

theorem splitOut_blank (hparts : run.Along fun u c => (regionAfter (before ++ u)).part c = .blank)
    (hstarts : run.Along fun u c => regionAfter (before ++ u) = .outside → Text.isBlank c = false → u = []) :
    SplitOut before .whitespace run after := by
  refine ⟨?_, hstarts, nofun, ?_, by simp⟩
  · intro u c v hrun
    rw [hparts u c v hrun]
    exact List.mem_cons_self
  · rintro - - u c v hrun rfl
    exact absurd (hparts u _ v hrun) (Region.part_dollar _)

theorem Inv.comment (h : Inv before .comment run) : SplitOut before .lineComment run after := by
  refine ⟨?_, h.starts, nofun, fun hkind => absurd rfl hkind, by simp⟩
  intro u c v hrun
  rw [h.parts u c v hrun]
  exact List.mem_cons_self

theorem pieceKind_mem (w : Text) : pieceKind w ∈ [.identifier, .reservedWord, .decimal] := by
  unfold pieceKind
  split_ifs <;> simp

theorem words_get? (w : Text) :
    words.get? w =
      if commands.any (fun name => Text.sameFolded name.toList w) then some .reservedWord else none :=
  get?_wordsOf_nil commands w

theorem label_word (hdigit : ∃ c ∈ run, Text.isDigit c = false) : label .word run = pieceKind run := by
  have hdigits : run.all Text.isDigit = false := by
    obtain ⟨c, hc, hdigit⟩ := hdigit
    exact List.all_eq_false.2 ⟨c, hc, by simp [hdigit]⟩
  simp only [label, words_get?, pieceKind, hdigits, Bool.false_eq_true, if_false]
  split_ifs <;> rfl

theorem chars_of_digits (h : Text.isDigit c = true) : c ≠ '$' ∧ Text.isBlank c = false := by
  refine ⟨?_, Text.isBlank_of_isAlphanumeric (Text.isAlphanumeric_of_isDigit h)⟩
  rintro rfl
  exact absurd h (by decide)

theorem Inv.piece (h : Inv before s run) (hs : s = .word ∨ s = .decimal)
    (hafter : ∀ c ∈ after.head?, c = '$' ∨ Text.isBlank c = true) : SplitOut before (label s run) run after := by
  -- the scan tells numbers from words by what it has seen, the kind of a piece by its whole text
  have hpiece : run ≠ [] ∧ (∀ c ∈ run, c ≠ '$' ∧ Text.isBlank c = false) ∧ label s run = pieceKind run := by
    have hholds := h.holds
    rcases hs with rfl | rfl
    · obtain ⟨hchars, hdigit⟩ := hholds
      obtain ⟨c, hc, -⟩ := id hdigit
      exact ⟨List.ne_nil_of_mem hc, hchars, label_word hdigit⟩
    · obtain ⟨hne, hdigits⟩ := hholds
      exact ⟨hne, fun c hc => chars_of_digits (hdigits c hc), (if_pos (List.all_eq_true.2 hdigits)).symm⟩
  have hpart : s.part = .word := by rcases hs with rfl | rfl <;> rfl
  obtain ⟨hne, hchars, hlabel⟩ := hpiece
  rw [hlabel]
  have hmem := pieceKind_mem run
  refine ⟨?_, h.starts, ?_, ?_, fun _ => ⟨hne, hchars, hafter, rfl⟩⟩
  · intro u c v hrun
    rw [h.parts u c v hrun, hpart]
    exact List.mem_append_left [.argument] hmem
  · intro hkind
    rw [hkind] at hmem
    simp at hmem
  · rintro - - u c v rfl rfl
    exact absurd rfl (hchars '$' (by simp)).1

theorem Inv.isArgument {host : Host} {a : Argument} (h : Inv before (.argument host a) run) : IsArgument run :=
  ⟨a, h.holds⟩

theorem Inv.argument {host : Host} {a : Argument} (h : Inv before (.argument host a) run)
    (hafter : ∀ c ∈ after.head?, a.step c = none) : SplitOut before .argument run after := by
  have hspells : a.Spells run := h.holds
  refine ⟨?_, h.starts, ?_, ?_, by simp⟩
  · intro u c v hrun
    rw [h.parts u c v hrun]
    cases host <;> simp [Scan.part, Part.kinds]
  · rintro -
    exact ⟨h.isArgument, fun c hc => hspells.not_isArgument (hafter c hc)⟩
  · rintro - - u c v rfl rfl -
    exact ⟨hspells.eq_nil_of_dollar, .inl rfl⟩

/-- An argument that its line ends within a literal is what is left open of the literal. -/
theorem Inv.openArgument {a : Argument} (h : Inv before (.argument .literal a) run) (hafter : after.AtLineEnd) :
    SplitOut before .errorString run after := by
  have hspells : a.Spells run := h.holds
  refine ⟨?_, h.starts, nofun, ?_, by simp⟩
  · intro u c v hrun
    rw [h.parts u c v hrun]
    simp [Scan.part, Part.kinds]
  · rintro - - u c v rfl rfl -
    exact ⟨hspells.eq_nil_of_dollar, .inr ⟨rfl, h.isArgument, hafter⟩⟩

/-- A piece of a literal, whose dollar signs are escaped unless it is bad. -/
theorem splitOut_literal (hkind : kind ∈ [.string, .errorString, .errorEscape])
    (hparts : run.Along fun u c => (regionAfter (before ++ u)).part c = .literal)
    (hstarts : run.Along fun u c => regionAfter (before ++ u) = .outside → Text.isBlank c = false → u = [])
    (hdollar : kind ≠ .errorEscape →
      run.Along fun u c => c = '$' → regionAfter (before ++ u) = .literal true) :
    SplitOut before kind run after := by
  refine ⟨?_, hstarts, ?_, ?_, ?_⟩
  · intro u c v hrun
    rw [hparts u c v hrun]
    exact List.mem_append_left [.argument] hkind
  · rintro rfl
    simp at hkind
  · intro _ hescape u c v hrun hc hregion
    exact absurd (hdollar hescape u c v hrun hc) hregion
  · intro hpiece
    simp only [List.mem_cons, List.not_mem_nil, or_false] at hkind
    rcases hkind with rfl | rfl | rfl <;> simp at hpiece

/-! ## What each state does with a character -/

theorem upholdsAt_neutral (hc : c ≠ '\n') (hregion : regionAfter before = .outside) :
    machine.UpholdsAt Inv SplitOut before .neutral [] c := by
  -- each character is taken, so what starts with it has to lie in the part that the character is of
  have htake : ∀ s', answer .neutral c = .take s' → Region.outside.part c = s'.part →
      Region.outside.next c = s'.region → s'.Holds before [c] →
        machine.UpholdsAt Inv SplitOut before .neutral [] c := by
    intro s' h hpart hnext hholds
    rw [← hregion] at hpart hnext
    exact Machine.upholdsAt_of_take h (inv_singleton hpart hnext hholds)
  by_cases hsign : c = '#'
  · subst hsign
    exact htake .comment rfl rfl rfl trivial
  by_cases hquote : c = '"'
  · subst hquote
    refine htake (.literal .body) rfl rfl rfl ?_
    intro _
    exact Text.along_concat.2 ⟨Text.along_nil, by simp⟩
  by_cases hdollar : c = '$'
  · subst hdollar
    exact htake (.argument .word .sigil) rfl rfl rfl rfl
  cases hblank : Text.isBlank c with
  | true =>
    obtain ⟨hpart, hnext⟩ := Region.next_blank (.inl rfl) hblank
    refine htake .blank ?_ hpart hnext trivial
    simp [answer, hsign, hblank]
  | false =>
    have hpart : Region.outside.part c = .word := by simp [Region.part, hc, hsign, hquote, hblank]
    have hnext : Region.outside.next c = .word := by simp [Region.next, hpart]
    cases hdigit : Text.isDigit c with
    | true =>
      refine htake .decimal ?_ hpart hnext ⟨List.cons_ne_nil _ _, by simpa using hdigit⟩
      simp [answer, hsign, hquote, hdollar, hblank, hdigit]
    | false =>
      refine htake .word ?_ hpart hnext ⟨by simp [hdollar, hblank], c, by simp, hdigit⟩
      simp [answer, hsign, hquote, hdollar, hblank, hdigit]

/-- A blank after a word, shown again, starts a run of blanks. -/
theorem upholdsAt_blank (hblank : Text.isBlank c = true) (hregion : regionAfter before = .word) :
    machine.UpholdsAt Inv SplitOut before .neutral [] c := by
  have hsign : c ≠ '#' := by rintro rfl; exact absurd hblank (by decide)
  have hanswer : machine.answer .neutral c = .take .blank := by
    show answer .neutral c = _
    simp [answer, hsign, hblank]
  obtain ⟨hpart, hnext⟩ := Region.next_blank (.inr hregion) hblank
  exact Machine.upholdsAt_of_take hanswer (inv_singleton hpart hnext trivial)

theorem upholdsAt_word (hs : s = .word ∨ s = .decimal) (h : Inv before s run) :
    machine.UpholdsAt Inv SplitOut before s run c := by
  have hword : s.region = .word ∧ s.part = .word := by rcases hs with rfl | rfl <;> exact ⟨rfl, rfl⟩
  have hregion : regionAfter (before ++ run) = .word := h.region.trans hword.1
  cases hblank : Text.isBlank c with
  | true =>
    have hcut : machine.answer s c = .cut .neutral := by
      show answer s c = _
      rcases hs with rfl | rfl <;> simp [answer, hblank]
    refine Machine.upholdsAt_of_cut hcut (rewinds_neutral c) ?_ (upholdsAt_blank hblank hregion)
    intro _ rest
    exact h.piece hs (by simp [hblank])
  | false =>
    by_cases hdollar : c = '$'
    · subst hdollar
      have hsplit : machine.answer s '$' = .split (.argument .word .sigil) := by
        rcases hs with rfl | rfl <;> rfl
      refine Machine.upholdsAt_of_split hsplit ?_ (inv_sigil .word hregion)
      intro _ rest
      exact h.piece hs (by simp)
    -- the word goes on, and which of the two states comes next is up to the digits
    · have htake : ∀ s', s' = .word ∨ s' = .decimal → machine.answer s c = .take s' →
          s'.Holds before (run ++ [c]) → machine.UpholdsAt Inv SplitOut before s run c := by
        intro s' hs' hanswer hholds
        have hword' : s'.region = .word ∧ s'.part = .word := by rcases hs' with rfl | rfl <;> exact ⟨rfl, rfl⟩
        obtain ⟨hpart, hnext⟩ := Region.next_word hblank
        refine Machine.upholdsAt_of_take hanswer (h.concat ?_ ?_ ?_ ?_ hholds)
        · rw [hword'.2, hword.2]
        · rw [hword.1, hword.2, hpart]
        · rw [hword.1]
          exact Region.noConfusion
        · rw [hword.1, hword'.1, hnext]
      have hholds := h.holds
      rcases hs with rfl | rfl
      · obtain ⟨hchars, d, hd, hdigit⟩ := hholds
        refine htake .word (.inl rfl) ?_ ⟨?_, d, List.mem_append_left _ hd, hdigit⟩
        · show answer .word c = _
          simp [answer, hblank, hdollar]
        · exact List.forall_mem_append.2 ⟨hchars, by simp [hdollar, hblank]⟩
      · obtain ⟨hne, hdigits⟩ := hholds
        cases hdigit : Text.isDigit c with
        | true =>
          refine htake .decimal (.inr rfl) ?_ ⟨by simp, ?_⟩
          · show answer .decimal c = _
            simp [answer, hblank, hdollar, hdigit]
          · exact List.forall_mem_append.2 ⟨hdigits, by simpa using hdigit⟩
        | false =>
          refine htake .word (.inl rfl) ?_ ⟨?_, c, by simp, hdigit⟩
          · show answer .decimal c = _
            simp [answer, hblank, hdollar, hdigit]
          · refine List.forall_mem_append.2 ⟨?_, by simp [hdollar, hblank]⟩
            exact fun d hd => chars_of_digits (hdigits d hd)

/-- After an argument a word goes on with a run of its own, which does not start with a digit. -/
theorem upholdsAt_resumed (hregion : regionAfter before = .word) (hblank : Text.isBlank c = false)
    (hdigit : Text.isDigit c = false) : machine.UpholdsAt Inv SplitOut before .word [] c := by
  by_cases hdollar : c = '$'
  · subst hdollar
    refine Machine.upholdsAt_of_split rfl (fun hne => absurd rfl hne) (inv_sigil .word ?_)
    rwa [List.append_nil]
  · have hanswer : machine.answer .word c = .take .word := by
      show answer .word c = _
      simp [answer, hblank, hdollar]
    obtain ⟨hpart, hnext⟩ := Region.next_word hblank
    have hholds : Scan.word.Holds before [c] := ⟨by simp [hdollar, hblank], c, by simp, hdigit⟩
    refine Machine.upholdsAt_of_take hanswer (inv_singleton ?_ ?_ hholds)
    · rw [hregion, hpart]
      rfl
    · rw [hregion, hnext]
      rfl

/-- A literal that is not bad after a character was none before it. -/
theorem spoilt_of_advance {q q' : Literal} (h : q.advance? true c = some q') (hq' : q'.spoilt = false) :
    q.spoilt = false := by
  cases q with
  | body | escape | digits n => rfl
  | bad =>
    rw [Literal.spoilt_of_advance_bad h] at hq'
    cases hq'
  | badEscape =>
    obtain rfl := Option.some.inj h
    cases hq'

/-- The dollar signs that a literal takes without being bad are second members of pairs. -/
theorem takes_of_dollar {q q' : Literal} (h : q.advance? true '$' = some q') (hq' : q'.spoilt = false)
    (hbody : q ≠ .body) : q.takes = true := by
  have hq := spoilt_of_advance h hq'
  cases q with
  | body => exact absurd rfl hbody
  | escape => rfl
  | digits n =>
    rw [Literal.advance?_digits_of_not_hex true '$' (by decide)] at h
    rw [Literal.spoilt_of_advance_bad h] at hq'
    cases hq'
  | bad | badEscape => cases hq

theorem Inv.advance {q q' : Literal} (hc : c ≠ '\n') (hsigil : ¬ (q = .body ∧ c = '$'))
    (hadv : q.advance? true c = some q') (h : Inv before (.literal q) run) :
    Inv before (.literal q') (run ++ [c]) := by
  have hclosing := Literal.not_closing_of_advance hadv
  obtain ⟨hpart, hnext⟩ := Region.next_literal hc hclosing
  refine h.concat rfl hpart nofun ?_ ?_
  · rw [← Literal.takes_of_advance hadv] at hnext
    exact hnext
  · intro hspoilt
    refine Text.along_concat.2 ⟨h.holds (spoilt_of_advance hadv hspoilt), ?_⟩
    rintro rfl
    have htakes := takes_of_dollar hadv hspoilt fun hbody => hsigil ⟨hbody, rfl⟩
    rw [h.region]
    exact congrArg Region.literal htakes

theorem Inv.openLiteral {q : Literal} (h : Inv before (.literal q) run)
    (hkind : kind ∈ [.string, .errorString, .errorEscape]) (hspoilt : kind ≠ .errorEscape → q.spoilt = false) :
    SplitOut before kind run after :=
  splitOut_literal hkind h.parts h.starts fun hescape => h.holds (hspoilt hescape)

/-- The quote that closes a literal is the last character of its last piece. -/
theorem Inv.closedLiteral {q : Literal} (htakes : q.takes = false) (h : Inv before (.literal q) run) :
    SplitOut before q.closedKind (run ++ ['"']) after := by
  refine splitOut_literal ?_ (Text.along_concat.2 ⟨h.parts, ?_⟩) (Text.along_concat.2 ⟨h.starts, ?_⟩) ?_
  · unfold Literal.closedKind
    split_ifs <;> simp
  · rw [h.region]
    rfl
  · rw [h.region]
    exact nofun
  · intro hescape
    have hbody : q = .body := by
      by_contra hq
      exact hescape (if_neg hq)
    subst hbody
    exact Text.along_concat.2 ⟨h.holds rfl, by simp⟩

theorem upholdsAt_literal {q : Literal} (hc : c ≠ '\n') (h : Inv before (.literal q) run) :
    machine.UpholdsAt Inv SplitOut before (.literal q) run c := by
  by_cases hsigil : q = .body ∧ c = '$'
  · obtain ⟨rfl, rfl⟩ := hsigil
    refine Machine.upholdsAt_of_split rfl ?_ (inv_sigil .literal h.region)
    intro _ rest
    exact h.openLiteral (by simp [machine, label]) fun _ => rfl
  -- a character that spoils the literal is shown once more, to the bad one, which splits at no dollar sign
  have hbad : ¬ (Literal.bad = .body ∧ c = '$') := fun hbody => Literal.noConfusion hbody.1
  cases hadv : q.advance? true c with
  | some q' =>
    exact Machine.upholdsAt_of_advance (answer_literal hsigil) (answer_literal hbad) hadv
      (h.advance hc hsigil hadv)
  | none =>
    obtain ⟨rfl, htakes⟩ := Prod.mk.inj (Literal.advance?_eq_none_iff.1 hadv)
    refine Machine.upholdsAt_of_closing (answer_literal hsigil) (answer_literal hbad) htakes ?_ (inv_nil ?_ rfl)
    · exact fun _ => h.closedLiteral htakes
    · rw [← List.append_assoc, regionAfter_concat, h.region]
      show (Region.literal q.takes).next '"' = .outside
      rw [htakes]
      rfl

theorem upholdsAt_argument {host : Host} {a : Argument} (hc : c ≠ '\n') (h : Inv before (.argument host a) run) :
    machine.UpholdsAt Inv SplitOut before (.argument host a) run c := by
  have hspells : a.Spells run := h.holds
  cases ha : a.step c with
  | some a' =>
    have hanswer : machine.answer (.argument host a) c = .take (.argument host a') := by
      show answer (.argument host a) c = _
      simp only [answer, ha]
    have hquote : c ≠ '"' := by rintro rfl; rw [a.step_quote] at ha; cases ha
    have hslash : c ≠ '\\' := by rintro rfl; rw [a.step_backslash] at ha; cases ha
    obtain ⟨hpart, hnext⟩ := Region.next_word (Argument.isBlank_of_step ha)
    obtain ⟨hpart', hnext'⟩ := @Region.next_literal c false hc (by simp [Literal.closingQuote, hquote])
    refine Machine.upholdsAt_of_take hanswer (h.concat ?_ ?_ ?_ ?_ (hspells.step ha)) <;> cases host
    · rfl
    · rfl
    · exact hpart
    · exact hpart'
    · exact Region.noConfusion
    · exact Region.noConfusion
    · exact hnext
    · show (Region.literal false).next c = .literal false
      simp [hnext', hslash]
  | none =>
    have hcut : machine.answer (.argument host a) c = .cut (resume host c) := by
      show answer (.argument host a) c = _
      simp only [answer, ha]
    -- the argument ends, and what it stands in is shown the character with nothing pending
    refine Machine.upholdsAt_of_cut hcut (rewinds_resume host c) ?_ ?_
    · intro _ rest
      exact h.argument fun d hd => Option.some.inj hd ▸ ha
    · cases host with
      | literal => exact upholdsAt_literal hc (inv_nil h.region fun _ => Text.along_nil)
      | word =>
        unfold resume
        cases hblank : Text.isBlank c with
        | true => exact upholdsAt_blank hblank h.region
        | false => exact upholdsAt_resumed h.region hblank (Argument.isDigit_of_step_eq_none ha)

theorem upholdsAt (hc : c ≠ '\n') (h : Inv before s run) : machine.UpholdsAt Inv SplitOut before s run c := by
  cases s with
  | neutral =>
    obtain rfl : run = [] := h.holds
    have hregion := h.region
    rw [List.append_nil] at hregion
    exact upholdsAt_neutral hc hregion
  | blank =>
    cases hblank : Text.isBlank c with
    | true =>
      have hanswer : machine.answer .blank c = .take .blank := by
        show answer .blank c = _
        simp [answer, hblank]
      obtain ⟨hpart, hnext⟩ := Region.next_blank (.inl rfl) hblank
      exact Machine.upholdsAt_of_take hanswer (h.concat rfl hpart (fun _ => hblank) hnext trivial)
    | false =>
      have hcut : machine.answer .blank c = .cut .neutral := by
        show answer .blank c = _
        simp [answer, hblank]
      refine Machine.upholdsAt_of_cut hcut (rewinds_neutral c) ?_ (upholdsAt_neutral hc h.region)
      intro _ rest
      exact splitOut_blank h.parts h.starts
  | comment =>
    obtain ⟨hpart, hnext⟩ := Region.next_comment hc
    exact Machine.upholdsAt_of_take rfl (h.concat rfl hpart Region.noConfusion hnext trivial)
  | word => exact upholdsAt_word (.inl rfl) h
  | decimal => exact upholdsAt_word (.inr rfl) h
  | literal q => exact upholdsAt_literal hc h
  | argument host a => exact upholdsAt_argument hc h

/-- The last run of a line. -/
theorem Inv.last (h : Inv before s run) (hne : run ≠ []) (hafter : after.AtLineEnd) :
    SplitOut before (lastLabel s run) run after := by
  have hblank : ∀ c ∈ after.head?, c = '$' ∨ Text.isBlank c = true := by
    intro c hc
    rw [hafter c hc]
    exact .inr rfl
  cases s with
  | neutral => exact absurd h.holds hne
  | blank => exact splitOut_blank h.parts h.starts
  | comment => exact h.comment
  | word => exact h.piece (.inl rfl) hblank
  | decimal => exact h.piece (.inr rfl) hblank
  | literal q =>
    show SplitOut before q.openKind run after
    refine h.openLiteral ?_ ?_ <;> cases q <;> simp [Literal.openKind, Literal.spoilt]
  | argument host a =>
    cases host with
    | literal => exact h.openArgument hafter
    | word =>
      refine h.argument fun c hc => ?_
      rw [hafter c hc]
      exact a.step_newline

end Steps

theorem upholds : machine.Upholds Inv SplitOut where
  enter := by
    intro before state hstart
    exact inv_nil (regionAfter_of_atLineStart hstart) rfl
  newline := by
    intro before after
    refine splitOut_blank (Text.along_concat.2 ⟨Text.along_nil, ?_⟩) (Text.along_concat.2 ⟨Text.along_nil, ?_⟩)
    · exact if_pos rfl
    · exact fun _ _ => rfl
  react := upholdsAt
  last := Inv.last

/-! ## Characters of the text -/

/-- Tokens of a merge script, which starts at byte `offset` of the document, with its arguments split out. -/
structure SplitsArguments (offset : Nat) (t : Text) (tokens : List Token) : Prop where
  covers : Covers offset t tokens
  /-- Each token stands in its line as the regions of the line allow. -/
  each : Token.Each SplitOut tokens
  /-- Each character of the text is in a token that can be of the part of the line that the character is of. -/
  parts : ∀ front c back, t = front ++ c :: back → ∃ k inside after, Token.Has tokens front c back k inside after ∧
    k.kind ∈ ((regionAfter front).part c).kinds
  /-- Each dollar sign outside comments, unless it is the second member of a pair in a literal or in a bad piece of
  one, starts a token that is an argument, or the last piece of a literal that its line leaves open. -/
  sigils : ∀ front back, t = front ++ '$' :: back → regionAfter front ≠ .comment → regionAfter front ≠ .literal true →
    ∃ k inside after, Token.Has tokens front '$' back k inside after ∧
      (k.kind = .errorEscape ∨ inside = [] ∧
        (k.kind = .argument ∨ k.kind = .errorString ∧ IsArgument k.text ∧ after.AtLineEnd))
  /-- Each quote outside words, literals and comments opens a literal. -/
  quotes : ∀ front back, t = front ++ '"' :: back → regionAfter front = .outside →
    ∃ k after, Token.Has tokens front '"' back k [] after ∧ k.kind ∈ [.string, .errorString, .errorEscape]
  /-- Each number sign outside words, literals and comments opens a comment. -/
  signs : ∀ front back, t = front ++ '#' :: back → regionAfter front = .outside →
    ∃ k after, Token.Has tokens front '#' back k [] after ∧ k.kind = .lineComment

section Characters

variable {offset : Nat} {t front back inside after : Text} {c : Char} {tokens : List Token} {k : Token}

theorem lineComment_notMem_kinds_dollar {r : Region} (h : r ≠ .comment) : Kind.lineComment ∉ (r.part '$').kinds := by
  cases r with
  | comment => exact absurd rfl h
  | outside | word => decide
  | literal => exact (by decide : Kind.lineComment ∉ Part.literal.kinds)

theorem IsArgument.eq_dollar {w : Text} (h : IsArgument (c :: w)) : c = '$' := by
  obtain ⟨a, ha⟩ := h
  obtain ⟨_, heq, -⟩ := Argument.spells_iff.1 ha
  exact (List.cons.inj heq).1

theorem part_of_has (h : Token.Each SplitOut tokens) (hk : Token.Has tokens front c back k inside after) :
    k.kind ∈ ((regionAfter front).part c).kinds := by
  obtain ⟨before, rest, rfl, htext, hsplit⟩ := h.of_has hk
  exact hsplit.parts inside c rest htext

theorem eq_nil_of_has (h : Token.Each SplitOut tokens) (hk : Token.Has tokens front c back k inside after)
    (hregion : regionAfter front = .outside) (hblank : Text.isBlank c = false) : inside = [] := by
  obtain ⟨before, rest, rfl, htext, hsplit⟩ := h.of_has hk
  exact hsplit.starts inside c rest htext hregion hblank

theorem sigil_of_has (h : Token.Each SplitOut tokens) (hk : Token.Has tokens front '$' back k inside after)
    (hcomment : regionAfter front ≠ .comment) (htaken : regionAfter front ≠ .literal true) :
    k.kind = .errorEscape ∨ inside = [] ∧
      (k.kind = .argument ∨ k.kind = .errorString ∧ IsArgument k.text ∧ after.AtLineEnd) := by
  have hpart := part_of_has h hk
  have hkind : k.kind ≠ .lineComment := by
    intro hkind
    rw [hkind] at hpart
    exact lineComment_notMem_kinds_dollar hcomment hpart
  obtain ⟨before, rest, rfl, htext, hsplit⟩ := h.of_has hk
  refine or_iff_not_imp_left.2 fun hescape => ?_
  exact hsplit.sigil hkind hescape inside '$' rest htext rfl htaken

theorem quote_of_has (h : Token.Each SplitOut tokens) (hk : Token.Has tokens front '"' back k [] after)
    (hregion : regionAfter front = .outside) : k.kind ∈ [.string, .errorString, .errorEscape] := by
  have hpart := part_of_has h hk
  obtain ⟨before, rest, -, htext, hsplit⟩ := h.of_has hk
  rw [hregion] at hpart
  have hkinds : k.kind ∈ [.string, .errorString, .errorEscape, .argument] := hpart
  -- an argument starts with a dollar sign
  have hargument : k.kind ≠ .argument := by
    intro hkind
    have hform := (hsplit.argument hkind).1
    rw [htext] at hform
    exact absurd hform.eq_dollar (by decide)
  simpa [hargument] using hkinds

theorem splitsArguments_of_each (hcovers : Covers offset t tokens) (h : Token.Each SplitOut tokens) :
    SplitsArguments offset t tokens := by
  have hhas : ∀ {front c back}, t = front ++ c :: back →
      ∃ k inside after, Token.Has tokens front c back k inside after :=
    fun ht => Token.exists_has (hcovers.text.trans ht)
  refine ⟨hcovers, h, ?_, ?_, ?_, ?_⟩
  · intro front c back ht
    obtain ⟨k, inside, after, hk⟩ := hhas ht
    exact ⟨k, inside, after, hk, part_of_has h hk⟩
  · intro front back ht hcomment htaken
    obtain ⟨k, inside, after, hk⟩ := hhas ht
    exact ⟨k, inside, after, hk, sigil_of_has h hk hcomment htaken⟩
  · intro front back ht hregion
    obtain ⟨k, inside, after, hk⟩ := hhas ht
    obtain rfl := eq_nil_of_has h hk hregion (by decide)
    exact ⟨k, after, hk, quote_of_has h hk hregion⟩
  · intro front back ht hregion
    obtain ⟨k, inside, after, hk⟩ := hhas ht
    obtain rfl := eq_nil_of_has h hk hregion (by decide)
    have hpart := part_of_has h hk
    rw [hregion] at hpart
    exact ⟨k, after, hk, List.mem_singleton.1 hpart⟩

end Characters

end MergeScript

/-- Arguments are split out of a merge script, whatever stands around them. Its tokens cover it. Each of them stands in
its line as the regions of the line allow, is an argument in full if it is one, holds no dollar sign that starts another
one, and if it is left of a word, is of the kind of its text. Each dollar sign of the text starts an argument unless it
is in a comment, escaped or in a bad piece of a literal; each quote and each number sign outside of words, literals and
comments opens a literal and a comment. -/
theorem arguments_split_out (t : Text) (state : LineState) (offset : Nat) :
    MergeScript.SplitsArguments offset t (Language.wadMerge.tokenize t state offset).tokens := by
  have hscan := MergeScript.upholds.each_scan state t
  have heach := Token.each_tokensOf MergeScript.cuts_splitOut hscan offset
  exact MergeScript.splitsArguments_of_each (Language.wadMerge.covers_tokenize t state offset) heach

end DoomLex
