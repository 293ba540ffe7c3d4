/-
The grammar of texture lists, and that lines are lexed by it. What the next token of a line is can be read
off the characters there, up to the next blank or as far as characters of names go; only whether a name is
that of a texture or of a patch depends on the tokens before it. The scan decides character by character, with
a flag for the star: that the flag says what the tokens before it say is the invariant that goes from token
to token. Every line has exactly one reading.
-/
import DoomLex.Proofs.Lexing.Emission
import DoomLex.Proofs.Lexing.Lines
import DoomLex.Proofs.Text.Alphabets
import DoomLex.Proofs.Text.Characters
import Mathlib.Data.List.Forall2
import Mathlib.Tactic.Push

namespace DoomLex

namespace TextureList

/-! ## The grammar of a line -/

/-- The characters of names. -/
def NameChar (c : Char) : Prop := c ∈ "0123456789ABCDEFGHIJKLMNOPQRSTUVWXYZ[\\]^+-_".toList

/-- One of the tokens starts with a star. -/
def starred (earlier : List Run) : Bool := earlier.any (·.text.head? == some '*')

/-- The kind of a name, by the tokens before it on its line. -/
def nameKind (earlier : List Run) : Kind := if starred earlier then .patchName else .textureName

/-- The kind and the text of the next token of a line, and the rest of the line after it. -/
inductive Next (earlier : List Run) : Kind → Text → Text → Prop where
  | comment (t : Text) : Next earlier .lineComment (';' :: t) []
  | blanks {w rest : Text} (hne : w ≠ []) (hw : ∀ c ∈ w, Text.isBlank c = true)
      (hrest : ∀ c ∈ rest.head?, Text.isBlank c = false) : Next earlier .whitespace w rest
  | marker {rest : Text} (hrest : Text.BlankNext rest) : Next earlier .patchMarker ['*'] rest
  | badMarker {w rest : Text} (hne : w ≠ []) (hw : ∀ c ∈ w, Text.isBlank c = false)
      (hrest : Text.BlankNext rest) : Next earlier .errorIdentifier ('*' :: w) rest
  | name {w rest : Text} (hw : ∀ c ∈ w, NameChar c) (hrest : ∀ c ∈ rest.head?, ¬ NameChar c)
      (hdigits : ∃ c ∈ w, Text.isDigit c = false) : Next earlier (nameKind earlier) w rest
  | number {w rest : Text} (hne : w ≠ []) (hw : ∀ c ∈ w, Text.isDigit c = true)
      (hrest : Text.BlankNext rest) : Next earlier .decimal w rest
  | badNumber {w u rest : Text} (hne : w ≠ []) (hw : ∀ c ∈ w, Text.isDigit c = true)
      (hfirst : ∃ c ∈ u.head?, ¬ NameChar c) (hu : ∀ c ∈ u, Text.isBlank c = false)
      (hrest : Text.BlankNext rest) : Next earlier .errorNumber (w ++ u) rest
  | badName {u rest : Text} (hfirst : ∃ c ∈ u.head?, ¬ NameChar c ∧ c ≠ ';' ∧ c ≠ '*')
      (hu : ∀ c ∈ u, Text.isBlank c = false) (hrest : Text.BlankNext rest) :
      Next earlier .errorIdentifier u rest

/-- The tokens of the rest of a line, by those before it. -/
inductive Reads : (earlier : List Run) → Text → List Run → Prop where
  | done {earlier : List Run} : Reads earlier [] []
  | next {earlier runs : List Run} {kind : Kind} {w rest : Text} (h : Next earlier kind w rest)
      (hrest : Reads (earlier ++ [⟨kind, w⟩]) rest runs) : Reads earlier (w ++ rest) (⟨kind, w⟩ :: runs)

theorem starred_concat (earlier : List Run) (r : Run) :
    starred (earlier ++ [r]) = (starred earlier || r.text.head? == some '*') := by
  simp [starred]

/-! ## Characters -/

theorem contains_nameChars {c : Char} : nameChars.contains c = true ↔ NameChar c := Alphabet.contains_ofString

theorem contains_nameChars_eq_false {c : Char} : nameChars.contains c = false ↔ ¬ NameChar c := by
  rw [← contains_nameChars, Bool.not_eq_true]

theorem NameChar.not_blank {c : Char} (h : NameChar c) : Text.isBlank c = false := by
  have hall : ("0123456789ABCDEFGHIJKLMNOPQRSTUVWXYZ[\\]^+-_".toList.all fun c => !Text.isBlank c) = true := by
    decide
  have hc := List.all_eq_true.1 hall c h
  rwa [Bool.not_eq_true'] at hc

theorem NameChar.ne_signs {c : Char} (h : NameChar c) : c ≠ ';' ∧ c ≠ '*' := by
  constructor <;> (rintro rfl; exact absurd h (by unfold NameChar; decide))

theorem nameChar_of_isDigit {c : Char} (h : Text.isDigit c = true) : NameChar c := by
  have hall := Text.forall_ascii
    (p := fun c => !Text.isDigit c || "0123456789ABCDEFGHIJKLMNOPQRSTUVWXYZ[\\]^+-_".toList.contains c)
    (by decide) (Text.toNat_lt_of_isDigit h)
  rw [h, Bool.not_true, Bool.false_or] at hall
  exact List.contains_iff_mem.1 hall

/-! ## What the machine takes -/

section Takes

variable {w rest : Text} {flag flag' : Bool} {place : Place} {c : Char}

theorem answer_blank (hc : Text.isBlank c = true) (hplace : place ∈ [.marker, .decimal, .badNumber, .badName]) :
    machine.answer ⟨place, flag⟩ c = .cut ⟨.neutral, flag⟩ := by
  show answer ⟨place, flag⟩ c = _
  simp only [List.mem_cons, List.not_mem_nil, or_false] at hplace
  rcases hplace with rfl | rfl | rfl | rfl <;> simp [answer, hc]

theorem takes_stay (hnewline : '\n' ∉ w) (hplace : place = .badNumber ∨ place = .badName)
    (hw : ∀ c ∈ w, Text.isBlank c = false) : machine.Takes ⟨place, flag⟩ w ⟨place, flag⟩ := by
  refine .of_forall hnewline ?_
  intro c hc
  show answer ⟨place, flag⟩ c = _
  rcases hplace with rfl | rfl <;> simp [answer, hw c hc]

theorem takes_blanks (hne : w ≠ []) (hnewline : '\n' ∉ w) (hw : ∀ c ∈ w, Text.isBlank c = true) :
    machine.Takes ⟨.neutral, flag⟩ w ⟨.blank, flag⟩ := by
  obtain ⟨c, w, rfl⟩ := List.exists_cons_of_ne_nil hne
  rw [List.mem_cons, not_or] at hnewline
  obtain ⟨hc, hw⟩ := List.forall_mem_cons.1 hw
  have hsemicolon : c ≠ ';' := by rintro rfl; exact absurd hc (by decide)
  have hstar : c ≠ '*' := by rintro rfl; exact absurd hc (by decide)
  have hanswer : machine.answer ⟨.neutral, flag⟩ c = .take ⟨.blank, flag⟩ := by
    show answer ⟨.neutral, flag⟩ c = _
    simp [answer, hsemicolon, hstar, hc]
  refine .cons (Ne.symm hnewline.1) hanswer (.of_forall hnewline.2 ?_)
  intro d hd
  show answer ⟨.blank, flag⟩ d = _
  simp [answer, hw d hd]

/-- Where the scan of characters of names stands: in a number as long as all were digits. -/
def afterNames (w : Text) : Place := if w.all Text.isDigit then .decimal else .name

theorem takes_afterNames (c : Char) (hnewline : '\n' ∉ w) (hw : ∀ c ∈ w, NameChar c) :
    machine.Takes ⟨afterNames [c], flag⟩ w ⟨afterNames (c :: w), flag⟩ := by
  -- digits keep a number one; from the first other character on the state stays that of a name
  induction w generalizing c with
  | nil => exact .nil
  | cons d w ih =>
    rw [List.mem_cons, not_or] at hnewline
    obtain ⟨hd, hw⟩ := List.forall_mem_cons.1 hw
    have hblank := hd.not_blank
    have hname := contains_nameChars.2 hd
    cases hdigit : Text.isDigit c with
    | true =>
      have hafter : afterNames (c :: d :: w) = afterNames (d :: w) := by simp [afterNames, hdigit]
      have hfirst : afterNames [c] = .decimal := by simp [afterNames, hdigit]
      have hanswer : machine.answer ⟨.decimal, flag⟩ d = .take ⟨afterNames [d], flag⟩ := by
        show answer ⟨.decimal, flag⟩ d = _
        cases hd' : Text.isDigit d <;> simp [answer, afterNames, hblank, hname, hd']
      rw [hafter, hfirst]
      exact .cons (Ne.symm hnewline.1) hanswer (ih d hnewline.2 hw)
    | false =>
      have hafter : afterNames (c :: d :: w) = .name := by simp [afterNames, hdigit]
      have hfirst : afterNames [c] = .name := by simp [afterNames, hdigit]
      rw [hafter, hfirst]
      refine .of_forall (by simpa using hnewline) ?_
      intro x hx
      have hx : NameChar x := List.forall_mem_cons.2 ⟨hd, hw⟩ x hx
      show answer ⟨.name, flag⟩ x = _
      simp [answer, contains_nameChars.2 hx]

theorem takes_names (hne : w ≠ []) (hnewline : '\n' ∉ w) (hw : ∀ c ∈ w, NameChar c) :
    machine.Takes ⟨.neutral, flag⟩ w ⟨afterNames w, flag⟩ := by
  obtain ⟨c, w, rfl⟩ := List.exists_cons_of_ne_nil hne
  rw [List.mem_cons, not_or] at hnewline
  obtain ⟨hc, hw⟩ := List.forall_mem_cons.1 hw
  obtain ⟨hsemicolon, hstar⟩ := hc.ne_signs
  refine .cons (Ne.symm hnewline.1) ?_ (takes_afterNames c hnewline.2 hw)
  show answer ⟨.neutral, flag⟩ c = _
  cases hdigit : Text.isDigit c <;>
    simp [answer, afterNames, hsemicolon, hstar, hc.not_blank, contains_nameChars.2 hc, hdigit]

theorem takes_badNumber {u : Text} (hne : w ≠ []) (hnewline : '\n' ∉ w ++ u)
    (hw : ∀ c ∈ w, Text.isDigit c = true) (hfirst : ∃ c ∈ u.head?, ¬ NameChar c)
    (hu : ∀ c ∈ u, Text.isBlank c = false) :
    machine.Takes ⟨.neutral, flag⟩ (w ++ u) ⟨.badNumber, flag⟩ := by
  obtain ⟨c, hhead, hc⟩ := hfirst
  rw [List.mem_append, not_or] at hnewline
  have hdigits : afterNames w = .decimal := if_pos (List.all_eq_true.2 hw)
  have hnumber : machine.Takes ⟨.neutral, flag⟩ w ⟨.decimal, flag⟩ := by
    rw [← hdigits]
    exact takes_names hne hnewline.1 fun c hc => nameChar_of_isDigit (hw c hc)
  cases u with
  | nil => cases hhead
  | cons d u =>
    obtain rfl : d = c := Option.some.inj hhead
    obtain ⟨hblank, hu⟩ := List.forall_mem_cons.1 hu
    obtain ⟨hd, hnewline⟩ := not_or.1 (List.mem_cons.not.1 hnewline.2)
    have hdigit : Text.isDigit d = false := by
      by_contra h
      exact hc (nameChar_of_isDigit (by simpa using h))
    have hanswer : machine.answer ⟨.decimal, flag⟩ d = .take ⟨.badNumber, flag⟩ := by
      show answer ⟨.decimal, flag⟩ d = _
      simp [answer, hblank, hdigit, contains_nameChars_eq_false.2 hc]
    exact hnumber.append (.cons (Ne.symm hd) hanswer (takes_stay hnewline (.inl rfl) hu))

theorem takes_badName (hnewline : '\n' ∉ w) (hfirst : ∃ c ∈ w.head?, ¬ NameChar c ∧ c ≠ ';' ∧ c ≠ '*')
    (hw : ∀ c ∈ w, Text.isBlank c = false) : machine.Takes ⟨.neutral, flag⟩ w ⟨.badName, flag⟩ := by
  obtain ⟨c, hhead, hc, hsemicolon, hstar⟩ := hfirst
  cases w with
  | nil => cases hhead
  | cons d w =>
    obtain rfl : d = c := Option.some.inj hhead
    obtain ⟨hblank, hw⟩ := List.forall_mem_cons.1 hw
    obtain ⟨hd, hnewline⟩ := not_or.1 (List.mem_cons.not.1 hnewline)
    have hdigit : Text.isDigit d = false := by
      by_contra h
      exact hc (nameChar_of_isDigit (by simpa using h))
    have hanswer : machine.answer ⟨.neutral, flag⟩ d = .take ⟨.badName, flag⟩ := by
      show answer ⟨.neutral, flag⟩ d = _
      simp [answer, hsemicolon, hstar, hblank, hdigit, contains_nameChars_eq_false.2 hc]
    exact .cons (Ne.symm hd) hanswer (takes_stay hnewline (.inr rfl) hw)

/-- A star raises the flag; more characters up to the next blank make a bad name of it. -/
theorem takes_badMarker (hne : w ≠ []) (hnewline : '\n' ∉ w) (hw : ∀ c ∈ w, Text.isBlank c = false) :
    machine.Takes ⟨.neutral, flag⟩ ('*' :: w) ⟨.badName, true⟩ := by
  obtain ⟨c, w, rfl⟩ := List.exists_cons_of_ne_nil hne
  obtain ⟨hblank, hw⟩ := List.forall_mem_cons.1 hw
  obtain ⟨hc, hnewline⟩ := not_or.1 (List.mem_cons.not.1 hnewline)
  have hstar : machine.answer ⟨.neutral, flag⟩ '*' = .take ⟨.marker, true⟩ := rfl
  have hanswer : machine.answer ⟨.marker, true⟩ c = .take ⟨.badName, true⟩ := by
    show answer ⟨.marker, true⟩ c = _
    simp [answer, hblank]
  exact .cons (by decide) hstar (.cons (Ne.symm hc) hanswer (takes_stay hnewline (.inr rfl) hw))

/-- What is taken up to a cut is one run. -/
theorem scanFrom_token (h : machine.Takes ⟨.neutral, flag⟩ w ⟨place, flag'⟩) (hne : w ≠ [])
    (hcut : ∀ c ∈ rest.head?, machine.answer ⟨place, flag'⟩ c = .cut ⟨.neutral, flag'⟩) :
    machine.scanFrom ⟨.neutral, flag⟩ [] (w ++ rest) =
      (⟨label ⟨place, flag'⟩ w, w⟩ :: (machine.scanFrom ⟨.neutral, flag'⟩ [] rest).1,
        (machine.scanFrom ⟨.neutral, flag'⟩ [] rest).2) := by
  have hnext : ∀ c ∈ rest.head?, (machine.answer ⟨.neutral, flag'⟩ c).rewinds = false := by
    intro c _
    have hneutral : (⟨.neutral, flag'⟩ : Scan).place = .neutral := rfl
    exact rewinds_of_place_neutral hneutral c
  exact Machine.scanFrom_of_takes_cut h hne hcut hnext rfl rfl

/-- The scan takes a token as one run, and its flag goes on to say whether a token so far starts with a star. -/
def ScansAs (flag : Bool) (kind : Kind) (w rest : Text) : Prop :=
  machine.scanFrom ⟨.neutral, flag⟩ [] (w ++ rest) =
    (⟨kind, w⟩ :: (machine.scanFrom ⟨.neutral, flag || w.head? == some '*'⟩ [] rest).1,
      (machine.scanFrom ⟨.neutral, flag || w.head? == some '*'⟩ [] rest).2)

/-- A token that does not start with a star leaves the flag as it is. -/
theorem scansAs_unstarred {kind : Kind} (hstar : w.head? ≠ some '*')
    (hlabel : label ⟨place, flag⟩ w = kind) (h : machine.Takes ⟨.neutral, flag⟩ w ⟨place, flag⟩) (hne : w ≠ [])
    (hcut : ∀ c ∈ rest.head?, machine.answer ⟨place, flag⟩ c = .cut ⟨.neutral, flag⟩) :
    ScansAs flag kind w rest := by
  rw [ScansAs, beq_false_of_ne hstar, Bool.or_false, ← hlabel]
  exact scanFrom_token h hne hcut

/-- A token that starts with a star raises the flag. -/
theorem scansAs_starred {kind : Kind} (hlabel : label ⟨place, true⟩ ('*' :: w) = kind)
    (h : machine.Takes ⟨.neutral, flag⟩ ('*' :: w) ⟨place, true⟩)
    (hcut : ∀ c ∈ rest.head?, machine.answer ⟨place, true⟩ c = .cut ⟨.neutral, true⟩) :
    ScansAs flag kind ('*' :: w) rest := by
  rw [ScansAs, List.head?_cons, beq_self_eq_true, Bool.or_true, ← hlabel]
  exact scanFrom_token h (List.cons_ne_nil _ _) hcut

/-- No token starts with a star if none of its characters is one. -/
theorem head?_ne_star {p : Char → Prop} (hw : ∀ c ∈ w, p c) (hstar : ¬ p '*') : w.head? ≠ some '*' :=
  fun h => hstar (hw _ (List.mem_of_mem_head? h))

theorem scansAs_comment (hnewline : '\n' ∉ w) : ScansAs flag .lineComment (';' :: w) [] := by
  have htakes : machine.Takes ⟨.neutral, flag⟩ (';' :: w) ⟨.comment, flag⟩ :=
    .cons (by decide) rfl (.of_forall hnewline fun _ _ => rfl)
  exact scansAs_unstarred (by simp) rfl htakes (List.cons_ne_nil _ _) (by simp)

theorem scansAs_blanks (hne : w ≠ []) (hnewline : '\n' ∉ w) (hw : ∀ c ∈ w, Text.isBlank c = true)
    (hrest : ∀ c ∈ rest.head?, Text.isBlank c = false) : ScansAs flag .whitespace w rest := by
  refine scansAs_unstarred (head?_ne_star hw (by decide)) rfl (takes_blanks hne hnewline hw) hne fun c hc => ?_
  show answer ⟨.blank, flag⟩ c = _
  simp [answer, hrest c hc]

theorem scansAs_marker (hrest : Text.BlankNext rest) : ScansAs flag .patchMarker ['*'] rest := by
  have htakes : machine.Takes ⟨.neutral, flag⟩ ['*'] ⟨.marker, true⟩ := .cons (by decide) rfl .nil
  exact scansAs_starred rfl htakes fun c hc => answer_blank (hrest c hc) (by simp)

theorem scansAs_badMarker (hne : w ≠ []) (hnewline : '\n' ∉ w) (hw : ∀ c ∈ w, Text.isBlank c = false)
    (hrest : Text.BlankNext rest) : ScansAs flag .errorIdentifier ('*' :: w) rest :=
  scansAs_starred rfl (takes_badMarker hne hnewline hw) fun c hc => answer_blank (hrest c hc) (by simp)

theorem scansAs_name (hnewline : '\n' ∉ w) (hw : ∀ c ∈ w, NameChar c) (hrest : ∀ c ∈ rest.head?, ¬ NameChar c)
    (hdigits : ∃ c ∈ w, Text.isDigit c = false) :
    ScansAs flag (if flag then .patchName else .textureName) w rest := by
  obtain ⟨c, hc, hdigit⟩ := hdigits
  have hne : w ≠ [] := List.ne_nil_of_mem hc
  have hafter : afterNames w = .name := if_neg fun hall => by
    rw [List.all_eq_true.1 hall c hc] at hdigit
    cases hdigit
  have htakes : machine.Takes ⟨.neutral, flag⟩ w ⟨.name, flag⟩ := by
    rw [← hafter]
    exact takes_names hne hnewline hw
  refine scansAs_unstarred (head?_ne_star hw fun hstar => hstar.ne_signs.2 rfl) rfl htakes hne fun c hc => ?_
  show answer ⟨.name, flag⟩ c = _
  simp [answer, contains_nameChars_eq_false.2 (hrest c hc)]

theorem scansAs_number (hne : w ≠ []) (hnewline : '\n' ∉ w) (hw : ∀ c ∈ w, Text.isDigit c = true)
    (hrest : Text.BlankNext rest) : ScansAs flag .decimal w rest := by
  have hafter : afterNames w = .decimal := if_pos (List.all_eq_true.2 hw)
  have htakes : machine.Takes ⟨.neutral, flag⟩ w ⟨.decimal, flag⟩ := by
    rw [← hafter]
    exact takes_names hne hnewline fun c hc => nameChar_of_isDigit (hw c hc)
  exact scansAs_unstarred (head?_ne_star hw (by decide)) rfl htakes hne
    fun c hc => answer_blank (hrest c hc) (by simp)

theorem scansAs_badNumber {u : Text} (hne : w ≠ []) (hnewline : '\n' ∉ w ++ u)
    (hw : ∀ c ∈ w, Text.isDigit c = true) (hfirst : ∃ c ∈ u.head?, ¬ NameChar c)
    (hu : ∀ c ∈ u, Text.isBlank c = false) (hrest : Text.BlankNext rest) :
    ScansAs flag .errorNumber (w ++ u) rest := by
  have hstar : (w ++ u).head? ≠ some '*' := by
    rw [List.head?_append_of_ne_nil _ hne]
    exact head?_ne_star hw (by decide)
  exact scansAs_unstarred hstar rfl (takes_badNumber hne hnewline hw hfirst hu)
    (List.append_ne_nil_of_left_ne_nil hne _) fun c hc => answer_blank (hrest c hc) (by simp)

theorem scansAs_badName (hnewline : '\n' ∉ w) (hfirst : ∃ c ∈ w.head?, ¬ NameChar c ∧ c ≠ ';' ∧ c ≠ '*')
    (hw : ∀ c ∈ w, Text.isBlank c = false) (hrest : Text.BlankNext rest) :
    ScansAs flag .errorIdentifier w rest := by
  have htakes : machine.Takes ⟨.neutral, flag⟩ w ⟨.badName, flag⟩ := takes_badName hnewline hfirst hw
  obtain ⟨c, hc, -, -, hne⟩ := hfirst
  have hstar : w.head? ≠ some '*' := fun hstar => hne (Option.some.inj (hc.symm.trans hstar))
  exact scansAs_unstarred hstar rfl htakes (List.ne_nil_of_mem (List.mem_of_mem_head? hc))
    fun c hc => answer_blank (hrest c hc) (by simp)

end Takes

/-! ## Tokens and lines -/

section Tokens

variable {earlier : List Run} {kind : Kind} {w rest : Text}

theorem Next.ne_nil (h : Next earlier kind w rest) : w ≠ [] := by
  cases h with
  | comment t => exact List.cons_ne_nil _ _
  | blanks hne _ _ => exact hne
  | marker _ => exact List.cons_ne_nil _ _
  | badMarker _ _ _ => exact List.cons_ne_nil _ _
  | name _ _ hdigits =>
    rintro rfl
    obtain ⟨c, hc, -⟩ := hdigits
    exact List.not_mem_nil hc
  | number hne _ _ => exact hne
  | badNumber hne _ _ _ _ => exact List.append_ne_nil_of_left_ne_nil hne _
  | badName hfirst _ _ =>
    rintro rfl
    obtain ⟨c, hc, -⟩ := hfirst
    cases hc

/-- The scan takes the next token of the grammar as one run. -/
theorem Next.scansAs (h : Next earlier kind w rest) (hnewline : '\n' ∉ w) : ScansAs (starred earlier) kind w rest := by
  cases h with
  | comment t => exact scansAs_comment fun hmem => hnewline (List.mem_cons_of_mem _ hmem)
  | blanks hne hw hrest => exact scansAs_blanks hne hnewline hw hrest
  | marker hrest => exact scansAs_marker hrest
  | badMarker hne hw hrest => exact scansAs_badMarker hne (fun hmem => hnewline (List.mem_cons_of_mem _ hmem)) hw hrest
  | name hw hrest hdigits => exact scansAs_name hnewline hw hrest hdigits
  | number hne hw hrest => exact scansAs_number hne hnewline hw hrest
  | badNumber hne hw hfirst hu hrest => exact scansAs_badNumber hne hnewline hw hfirst hu hrest
  | badName hfirst hu hrest => exact scansAs_badName hnewline hfirst hu hrest

theorem scanFrom_of_next (h : Next earlier kind w rest) (hnewline : '\n' ∉ w ++ rest) :
    machine.scanFrom ⟨.neutral, starred earlier⟩ [] (w ++ rest) =
      (⟨kind, w⟩ :: (machine.scanFrom ⟨.neutral, starred (earlier ++ [⟨kind, w⟩])⟩ [] rest).1,
        (machine.scanFrom ⟨.neutral, starred (earlier ++ [⟨kind, w⟩])⟩ [] rest).2) := by
  rw [starred_concat]
  exact h.scansAs fun hmem => hnewline (List.mem_append_left _ hmem)

/-- What the grammar reads is what the scan makes of the line. -/
theorem scanFrom_of_reads {line : Text} {runs : List Run} (h : Reads earlier line runs)
    (hnewline : '\n' ∉ line) : (machine.scanFrom ⟨.neutral, starred earlier⟩ [] line).1 = runs := by
  induction h with
  | done => rfl
  | next h _ ih =>
    rw [scanFrom_of_next h hnewline, ih fun hn => hnewline (List.mem_append_right _ hn)]

end Tokens

/-- What follows up to the next blank. -/
theorem exists_word (t : Text) :
    ∃ w rest, t = w ++ rest ∧ (∀ c ∈ w, Text.isBlank c = false) ∧ Text.BlankNext rest := by
  obtain ⟨w, rest, rfl, hw, hrest⟩ := Text.exists_span (fun c => !Text.isBlank c) t
  refine ⟨w, rest, rfl, fun c hc => ?_, fun c hc => ?_⟩
  · simpa using hw c hc
  · simpa using hrest c hc

theorem exists_next_nameChar (earlier : List Run) {c : Char} (hc : NameChar c) (t : Text) :
    ∃ kind w rest, c :: t = w ++ rest ∧ Next earlier kind w rest := by
  obtain ⟨w, rest, rfl, hw, hrest⟩ := Text.exists_span nameChars.contains t
  have hnames : ∀ d ∈ c :: w, NameChar d :=
    List.forall_mem_cons.2 ⟨hc, fun d hd => contains_nameChars.1 (hw d hd)⟩
  have hmax : ∀ d ∈ rest.head?, ¬ NameChar d := fun d hd => contains_nameChars_eq_false.1 (hrest d hd)
  -- names end before any character that is not one of theirs, numbers only at blanks
  by_cases hdigits : ∀ d ∈ c :: w, Text.isDigit d = true
  · cases rest with
    | nil => exact ⟨_, c :: w, [], rfl, .number (List.cons_ne_nil _ _) hdigits fun _ h => nomatch h⟩
    | cons d rest =>
      cases hblank : Text.isBlank d with
      | true =>
        refine ⟨_, c :: w, d :: rest, rfl, .number (List.cons_ne_nil _ _) hdigits ?_⟩
        rintro x hx
        rwa [← Option.some.inj hx]
      | false =>
        obtain ⟨u, rest, rfl, hu, hrest⟩ := exists_word rest
        refine ⟨.errorNumber, (c :: w) ++ (d :: u), rest, by simp, ?_⟩
        exact .badNumber (List.cons_ne_nil _ _) hdigits ⟨d, rfl, hmax d rfl⟩
          (List.forall_mem_cons.2 ⟨hblank, hu⟩) hrest
  · push Not at hdigits
    obtain ⟨d, hd, hdigit⟩ := hdigits
    exact ⟨_, c :: w, rest, rfl, .name hnames hmax ⟨d, hd, by simpa using hdigit⟩⟩

/-- A line that is not empty has a next token. -/
theorem exists_next (earlier : List Run) {line : Text} (hne : line ≠ []) :
    ∃ kind w rest, line = w ++ rest ∧ Next earlier kind w rest := by
  obtain ⟨c, t, rfl⟩ := List.exists_cons_of_ne_nil hne
  by_cases hsemicolon : c = ';'
  · subst hsemicolon
    exact ⟨_, ';' :: t, [], (List.append_nil _).symm, .comment t⟩
  by_cases hstar : c = '*'
  · subst hstar
    obtain ⟨w, rest, rfl, hw, hrest⟩ := exists_word t
    rcases w.eq_nil_or_concat with rfl | ⟨_, _, hw'⟩
    · exact ⟨_, ['*'], rest, rfl, .marker hrest⟩
    · exact ⟨_, '*' :: w, rest, rfl, .badMarker (by simp [hw']) hw hrest⟩
  by_cases hname : NameChar c
  · exact exists_next_nameChar earlier hname t
  cases hblank : Text.isBlank c with
  | true =>
    obtain ⟨w, rest, rfl, hw, hrest⟩ := Text.exists_span Text.isBlank t
    exact ⟨_, c :: w, rest, rfl, .blanks (List.cons_ne_nil _ _) (List.forall_mem_cons.2 ⟨hblank, hw⟩) hrest⟩
  | false =>
    obtain ⟨w, rest, rfl, hw, hrest⟩ := exists_word t
    exact ⟨_, c :: w, rest, rfl,
      .badName ⟨c, rfl, hname, hsemicolon, hstar⟩ (List.forall_mem_cons.2 ⟨hblank, hw⟩) hrest⟩

theorem exists_reads (earlier : List Run) (line : Text) : ∃ runs, Reads earlier line runs := by
  -- each token takes a character at least, so the rest of the line is shorter
  induction hlen : line.length using Nat.strongRecOn generalizing earlier line with
  | ind n ih =>
    by_cases hne : line = []
    · subst hne
      exact ⟨[], .done⟩
    · obtain ⟨kind, w, rest, rfl, hnext⟩ := exists_next earlier hne
      have hshort : rest.length < n := by
        have := List.length_pos_iff.2 hnext.ne_nil
        rw [List.length_append] at hlen
        omega
      obtain ⟨runs, hruns⟩ := ih _ hshort (earlier ++ [⟨kind, w⟩]) rest rfl
      exact ⟨_, .next hnext hruns⟩

/-- The scan of a line is the one reading of it. -/
theorem reads_iff {line : Text} (hnewline : '\n' ∉ line) (runs : List Run) :
    Reads [] line runs ↔ runs = (machine.scan .neutral line).1 := by
  constructor
  · intro h
    exact (scanFrom_of_reads h hnewline).symm
  · rintro rfl
    obtain ⟨runs, hruns⟩ := exists_reads [] line
    have hscan : (machine.scan .neutral line).1 = runs := scanFrom_of_reads hruns hnewline
    rwa [hscan]

theorem forgets : machine.Forgets := ⟨fun _ => rfl, fun _ => rfl⟩

theorem eq_of_forall₂_reads {lines : List Text} {readings : List (List Run)}
    (hnewline : ∀ line ∈ lines, '\n' ∉ line) (h : List.Forall₂ (Reads []) lines readings) :
    readings = lines.map fun line => (machine.scan .neutral line).1 := by
  induction h with
  | nil => rfl
  | cons hline _ ih =>
    obtain ⟨hfirst, hrest⟩ := List.forall_mem_cons.1 hnewline
    rw [List.map_cons, ← ih hrest, (reads_iff hfirst _).1 hline]

end TextureList

/-- A texture list is lexed line by line, in whatever state it starts, and each line as the grammar reads it,
in the only way; which names are of patches is settled anew on each line. The tokens are these runs and cover the
list, before links are carved out of them. -/
theorem textures_read_by_grammar (t : Text) (state : LineState) (offset : Nat) :
    ∃ readings, List.Forall₂ (TextureList.Reads []) (Text.lines t) readings ∧
      (∀ others, List.Forall₂ (TextureList.Reads []) (Text.lines t) others → others = readings) ∧
      Language.deuTex.LexesInto t state offset ([Run.newline].intercalate readings) .neutral ∧
      Language.deuTex.tokenize t state offset =
        ⟨tokensOf offset ([Run.newline].intercalate readings), .neutral⟩ := by
  have hnewline : ∀ line ∈ Text.lines t, '\n' ∉ line := fun _ => Text.newline_notMem_of_mem_lines
  have hscan : Language.deuTex.scan state t = ([Run.newline].intercalate
      ((Text.lines t).map fun line => (TextureList.machine.scan .neutral line).1), .neutral) :=
    TextureList.forgets.scan_lines state t
  refine ⟨(Text.lines t).map fun line => (TextureList.machine.scan .neutral line).1, ?_, ?_, ?_, ?_⟩
  · rw [List.forall₂_map_right_iff, List.forall₂_same]
    intro line hline
    exact (TextureList.reads_iff (hnewline line hline) _).2 rfl
  · intro others hothers
    exact TextureList.eq_of_forall₂_reads hnewline hothers
  · exact Language.lexesInto_of_scan hscan offset
  · simp only [Language.tokenize, hscan]

end DoomLex
