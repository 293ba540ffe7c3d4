/-
Carving as a loop over matches. The matches of a pattern are found from left to right, each from where the one
before it ends. A loop over their bytes cuts off what stands before a link and then the link, which for a quoted
path is one byte shorter on either side, and at last what remains. It arrives at the bytes of the pieces of the
text, since what it has not cut off yet is always what is held back while the text is carved.
-/
import DoomLex.Proofs.Lexing.Coverage
import DoomLex.Proofs.Link.Patterns

namespace DoomLex

/-- The matches of a pattern in a text that starts at a byte, each as its first byte and the byte after it: where
the pattern matches, the first way in which it does, and then those in what this leaves; where it does not, those
behind the next character. Ways that take nothing are left out of account. -/
inductive Pattern.Finds (p : Pattern) : Nat → Text → List (Nat × Nat) → Prop where
  | done {n : Nat} (h : p.first? [] = none) : Finds p n [] []
  | pass {n : Nat} {c : Char} {t : Text} {found : List (Nat × Nat)} (h : p.first? (c :: t) = none)
      (ht : Finds p (n + c.utf8Size) t found) : Finds p n (c :: t) found
  | take {n : Nat} {t taken rest : Text} {found : List (Nat × Nat)} (h : p.first? t = some (taken, rest))
      (hne : taken ≠ []) (hrest : Finds p (n + Text.width taken) rest found) :
      Finds p n t ((n, n + Text.width taken) :: found)

/-- A stretch of a text, from the byte `start` up to the byte `stop`, and whether it is a link. -/
structure Fragment where
  start : Nat
  stop : Nat
  link : Bool
deriving DecidableEq, Repr

/-- The bytes of the link in a match: a quoted path stands between the quotes. -/
def LinkForm.inside : LinkForm → Nat × Nat → Nat × Nat
  | .url, found => found
  | .quotedPath, found => (found.1 + 1, found.2 - 1)

namespace Link

/-- Cuts a text of `width` bytes along the matches found in it, where the bytes before `scanned` have been cut
off already. -/
def cutAlong (form : LinkForm) (width scanned : Nat) : List (Nat × Nat) → List Fragment
  | [] => if scanned < width then [⟨scanned, width, false⟩] else []
  | taken :: found =>
    let (start, stop) := form.inside taken
    if start < stop then
      (if scanned < start then [⟨scanned, start, false⟩] else []) ++
        ⟨start, stop, true⟩ :: cutAlong form width stop found
    else cutAlong form width scanned found

/-- The loop over the matches of the pattern of a form cuts a text into these fragments. -/
def Cuts (form : LinkForm) (t : Text) (fragments : List Fragment) : Prop :=
  ∃ found, form.pattern.Finds 0 t found ∧ cutAlong form (Text.width t) 0 found = fragments

/-- The bytes of pieces that stand one after the other, from byte `start` on. -/
def fragmentsFrom (start : Nat) : List Piece → List Fragment
  | [] => []
  | p :: ps => ⟨start, start + Text.width p.text, p.link⟩ :: fragmentsFrom (start + Text.width p.text) ps

/-! ## Matches -/

section Finds

variable {form : LinkForm} {t : Text} {n : Nat}

theorem first?_eq_none_iff : form.pattern.first? t = none ↔ match? form t = none := by
  rw [first?_pattern, Option.map_eq_none_iff]

theorem exists_match?_of_first? {taken rest : Text} (h : form.pattern.first? t = some (taken, rest)) :
    ∃ m, match? form t = some m ∧ m.lead ++ m.link ++ m.trail = taken ∧ m.rest = rest := by
  rw [first?_pattern] at h
  obtain ⟨m, hm, heq⟩ := Option.map_eq_some_iff.1 h
  exact ⟨m, hm, congrArg Prod.fst heq, congrArg Prod.snd heq⟩

theorem match?_nil (form : LinkForm) : match? form [] = none := by
  cases form <;> rfl

theorem exists_finds (form : LinkForm) (n : Nat) (t : Text) : ∃ found, form.pattern.Finds n t found := by
  induction hlength : t.length using Nat.strongRecOn generalizing n t with
  | ind length ih =>
    subst hlength
    cases hm : match? form t with
    | none =>
      cases t with
      | nil => exact ⟨[], .done (first?_eq_none_iff.2 hm)⟩
      | cons c t =>
        obtain ⟨found, hfound⟩ := ih t.length (Nat.lt_succ_self _) (n + c.utf8Size) t rfl
        exact ⟨found, .pass (first?_eq_none_iff.2 hm) hfound⟩
    | some m =>
      have hfirst : form.pattern.first? t = some (m.lead ++ m.link ++ m.trail, m.rest) := by
        rw [first?_pattern, hm]
        rfl
      have hne : m.lead ++ m.link ++ m.trail ≠ [] := by
        simp [(append_of_match? hm).2]
      obtain ⟨found, hfound⟩ :=
        ih m.rest.length (length_rest_lt hm) (n + Text.width (m.lead ++ m.link ++ m.trail)) m.rest rfl
      exact ⟨_, .take hfirst hne hfound⟩

/-- The bytes of a match without those of what stands around the link are the bytes of the link. -/
theorem inside_of_match? {m : LinkMatch} (h : match? form t = some m) :
    form.inside (n, n + Text.width (m.lead ++ m.link ++ m.trail)) =
      (n + Text.width m.lead, n + Text.width m.lead + Text.width m.link) := by
  cases form with
  | url =>
    obtain ⟨scheme, -, hm⟩ := List.exists_of_findSome?_eq_some h
    obtain ⟨t', -, -, rfl⟩ := urlWith?_eq_some hm
    simp [LinkForm.inside]
  | quotedPath =>
    simp only [match?] at h
    unfold quotedPath? at h
    split at h
    · split at h
      · obtain rfl := Option.some.inj h
        have hquote : Char.utf8Size '"' = 1 := rfl
        simp only [LinkForm.inside, Text.width_append, Text.width_cons, Text.width_nil, hquote]
        refine Prod.ext rfl ?_
        omega
      · cases h
    · cases h

end Finds

/-! ## The loop -/

section Loop

variable {form : LinkForm} {t passed : Text} {n scanned : Nat} {found : List (Nat × Nat)}

theorem carveFrom_of_match?_eq_none {c : Char} (h : match? form (c :: t) = none) :
    carveFrom form passed (c :: t) = carveFrom form (c :: passed) t := by
  rw [carveFrom]
  split
  · rfl
  · rename_i m hm
    rw [h] at hm
    cases hm

theorem carveFrom_of_match?_eq_some {m : LinkMatch} (h : match? form t = some m) :
    carveFrom form passed t =
      plain (m.lead.reverse ++ passed) ++ ⟨m.link, true⟩ :: carveFrom form m.trail.reverse m.rest := by
  cases t with
  | nil => rw [match?_nil] at h; cases h
  | cons c t =>
    rw [carveFrom]
    split
    · rename_i hm
      rw [h] at hm
      cases hm
    · rename_i m' hm
      obtain rfl := Option.some.inj (h.symm.trans hm)
      rfl

theorem fragmentsFrom_append (start : Nat) (ps qs : List Piece) :
    fragmentsFrom start (ps ++ qs) =
      fragmentsFrom start ps ++ fragmentsFrom (start + Text.width (ps.flatMap (·.text))) qs := by
  induction ps generalizing start with
  | nil => rfl
  | cons p ps ih => simp [fragmentsFrom, ih, Nat.add_assoc]

theorem fragmentsFrom_plain (start : Nat) (passed : Text) :
    fragmentsFrom start (plain passed) =
      if start < start + Text.width passed then [⟨start, start + Text.width passed, false⟩] else [] := by
  by_cases hp : passed = []
  · subst hp
    simp [plain, fragmentsFrom]
  · have hpos := Text.width_pos hp
    rw [if_pos (by omega)]
    simp [plain, fragmentsFrom, hp, Text.width_reverse]

theorem cutAlong_cons {width start stop : Nat} {taken : Nat × Nat} (h : form.inside taken = (start, stop))
    (hlt : start < stop) :
    cutAlong form width scanned (taken :: found) =
      (if scanned < start then [⟨scanned, start, false⟩] else []) ++
        ⟨start, stop, true⟩ :: cutAlong form width stop found := by
  rw [cutAlong, h]
  exact if_pos hlt

/-- What the loop has not cut off yet is what is held back while the text is carved. -/
theorem cutAlong_of_finds (h : form.pattern.Finds n t found) (hscanned : scanned + Text.width passed = n) :
    cutAlong form (n + Text.width t) scanned found = fragmentsFrom scanned (carveFrom form passed t) := by
  induction h generalizing passed scanned with
  | done =>
    rw [cutAlong, carveFrom, fragmentsFrom_plain, hscanned]
    rfl
  | @pass n c t found h _ ih =>
    rw [carveFrom_of_match?_eq_none (first?_eq_none_iff.1 h), Text.width_cons, ← Nat.add_assoc]
    refine ih ?_
    rw [Text.width_cons]
    omega
  | @take n t taken rest found h hne _ ih =>
    obtain ⟨m, hm, rfl, rfl⟩ := exists_match?_of_first? h
    obtain ⟨ht, hlink⟩ := append_of_match? hm
    have hpos := Text.width_pos hlink
    have hwidth : n + Text.width t =
        n + Text.width (m.lead ++ m.link ++ m.trail) + Text.width m.rest := by
      rw [ht, Text.width_append, Nat.add_assoc]
    have htrail : n + Text.width m.lead + Text.width m.link + Text.width m.trail.reverse =
        n + Text.width (m.lead ++ m.link ++ m.trail) := by
      rw [Text.width_reverse, Text.width_append, Text.width_append]
      omega
    have hlead : n + Text.width m.lead = scanned + Text.width (m.lead.reverse ++ passed) := by
      rw [Text.width_append, Text.width_reverse]
      omega
    rw [cutAlong_cons (inside_of_match? hm) (Nat.lt_add_of_pos_right hpos), hwidth, ih htrail,
      carveFrom_of_match?_eq_some hm, fragmentsFrom_append, fragmentsFrom_plain, flatMap_text_plain,
      Text.width_reverse, hlead]
    rfl

theorem cuts_iff (form : LinkForm) (t : Text) (fragments : List Fragment) :
    Cuts form t fragments ↔ fragments = fragmentsFrom 0 (carve form t) := by
  have hcut : ∀ found, form.pattern.Finds 0 t found →
      cutAlong form (Text.width t) 0 found = fragmentsFrom 0 (carve form t) := by
    intro found hfound
    have hnothing : 0 + Text.width [] = 0 := rfl
    have h := cutAlong_of_finds hfound hnothing
    rwa [Nat.zero_add] at h
  constructor
  · rintro ⟨found, hfound, rfl⟩
    exact hcut found hfound
  · rintro rfl
    obtain ⟨found, hfound⟩ := exists_finds form 0 t
    exact ⟨found, hfound, hcut found hfound⟩

/-- The bytes of the link in a match are not none, and no character stands across either end of them. -/
theorem inside_of_finds {front : Text} (h : form.pattern.Finds n t found) (hn : Text.width front = n)
    {taken : Nat × Nat} (ht : taken ∈ found) :
    (form.inside taken).1 < (form.inside taken).2 ∧ (front ++ t).IsBoundary (form.inside taken).1 ∧
      (front ++ t).IsBoundary (form.inside taken).2 := by
  induction h generalizing front with
  | done => cases ht
  | @pass n c t found _ _ ih =>
    have hwidth : Text.width (front ++ [c]) = n + c.utf8Size := by rw [Text.width_append, hn]; rfl
    have hfront := ih hwidth ht
    rwa [List.append_assoc] at hfront
  | @take n t w rest found h _ _ ih =>
    obtain ⟨m, hm, rfl, rfl⟩ := exists_match?_of_first? h
    obtain ⟨htext, hlink⟩ := append_of_match? hm
    rcases List.mem_cons.1 ht with rfl | ht
    · rw [inside_of_match? hm]
      have hstart : (front ++ t).IsBoundary (n + Text.width m.lead) :=
        ⟨front ++ m.lead, m.link ++ m.trail ++ m.rest, by simp [htext], by rw [Text.width_append, hn]⟩
      have hstop : (front ++ t).IsBoundary (n + Text.width m.lead + Text.width m.link) :=
        ⟨front ++ m.lead ++ m.link, m.trail ++ m.rest, by simp [htext],
          by rw [Text.width_append, Text.width_append, hn]⟩
      exact ⟨Nat.lt_add_of_pos_right (Text.width_pos hlink), hstart, hstop⟩
    · have hwidth : Text.width (front ++ (m.lead ++ m.link ++ m.trail)) =
          n + Text.width (m.lead ++ m.link ++ m.trail) := by rw [Text.width_append, hn]
      have hfront := ih hwidth ht
      rwa [List.append_assoc, ← htext] at hfront

theorem filter_link_cutAlong {width : Nat} (h : ∀ taken ∈ found, (form.inside taken).1 < (form.inside taken).2) :
    (cutAlong form width scanned found).filter (·.link) =
      found.map fun taken => ⟨(form.inside taken).1, (form.inside taken).2, true⟩ := by
  induction found generalizing scanned with
  | nil =>
    unfold cutAlong
    split_ifs <;> rfl
  | cons taken found ih =>
    obtain ⟨htaken, hfound⟩ := List.forall_mem_cons.1 h
    rw [cutAlong_cons rfl htaken, List.filter_append, List.map_cons, ← ih hfound]
    split_ifs <;> rfl

end Loop

/-! ## The pieces divide the text -/

/-- Fragments that cover a text, one after the other and each between two characters. -/
structure Tiles (t : Text) (fragments : List Fragment) : Prop where
  first : ∀ f, fragments.head? = some f → f.start = 0
  next : fragments.IsChain fun f g => g.start = f.stop
  last : ∀ f, fragments.getLast? = some f → f.stop = Text.width t
  empty : fragments = [] ↔ t = []
  nonempty : ∀ f ∈ fragments, f.start < f.stop
  boundary : ∀ f ∈ fragments, t.IsBoundary f.start ∧ t.IsBoundary f.stop

/-- Pieces into which a text is divided: none is empty, together they are the text, and each is what the text has
at the bytes of the piece. -/
structure Divides (t : Text) (ps : List Piece) : Prop where
  text : ps.flatMap (·.text) = t
  nonempty : ∀ p ∈ ps, p.text ≠ []
  tiles : Tiles t (fragmentsFrom 0 ps)
  slices : List.Forall₂ (fun p f => t.slice? f.start f.stop = some p.text ∧ f.link = p.link) ps
    (fragmentsFrom 0 ps)

theorem map_layOut (kind : Kind) (offset start : Nat) (ps : List Piece) :
    (layOut offset start (ps.map fun p => (kind, p))).map (fun k => (⟨k.start, k.stop, k.link⟩ : Fragment)) =
      fragmentsFrom start ps := by
  induction ps generalizing start with
  | nil => rfl
  | cons p ps ih => exact congrArg _ (ih _)

theorem forall₂_fragmentsFrom (front : Text) (ps : List Piece) (back : Text) :
    List.Forall₂
      (fun p f => (front ++ ps.flatMap (·.text) ++ back).slice? f.start f.stop = some p.text ∧ f.link = p.link)
      ps (fragmentsFrom (Text.width front) ps) := by
  induction ps generalizing front with
  | nil => exact .nil
  | cons p ps ih =>
    refine .cons ⟨?_, rfl⟩ ?_
    · have h := Text.slice?_append front p.text (ps.flatMap (·.text) ++ back)
      simpa using h
    · have h := ih (front ++ p.text)
      simpa using h

theorem tiles_fragmentsFrom {ps : List Piece} (hne : ∀ p ∈ ps, p.text ≠ []) :
    Tiles (ps.flatMap (·.text)) (fragmentsFrom 0 ps) := by
  -- as tokens of some kind the pieces cover the text
  let qs : List (Kind × Piece) := ps.map fun p => (.whitespace, p)
  have hqs : ∀ q ∈ qs, q.2.text ≠ [] := by
    intro q hq
    obtain ⟨p, hp, rfl⟩ := List.mem_map.1 hq
    exact hne p hp
  have htext : stretchText qs = ps.flatMap (·.text) := List.flatMap_map ..
  have hcovers := covers_layOut 0 hqs
  rw [← htext, ← map_layOut .whitespace 0]
  change Tiles _ ((layOut 0 0 qs).map _)
  constructor
  · intro f hf
    rw [List.head?_map] at hf
    obtain ⟨k, hk, rfl⟩ := Option.map_eq_some_iff.1 hf
    exact start_head_layOut 0 0 qs hk
  · rw [List.isChain_map]
    exact isChain_layOut 0 0 qs
  · intro f hf
    rw [List.getLast?_map] at hf
    obtain ⟨k, hk, rfl⟩ := Option.map_eq_some_iff.1 hf
    rw [← Nat.zero_add (Text.width _)]
    exact stop_last_layOut 0 0 qs hk
  · rw [List.map_eq_nil_iff]
    exact hcovers.empty
  · intro f hf
    obtain ⟨k, hk, rfl⟩ := List.mem_map.1 hf
    exact Token.start_lt_stop (hcovers.nonempty k hk).1
  · intro f hf
    obtain ⟨k, hk, rfl⟩ := List.mem_map.1 hf
    obtain ⟨hstart, hstop, -⟩ := cuts_of_mem_layOut hk
    exact ⟨hstart, hstop⟩

/-- Each piece stands at the bytes of a fragment. -/
theorem Divides.exists_fragment {t : Text} {ps : List Piece} (h : Divides t ps) {p : Piece} (hp : p ∈ ps) :
    ∃ f ∈ fragmentsFrom 0 ps, t.slice? f.start f.stop = some p.text ∧ f.link = p.link := by
  obtain ⟨hlength, hget⟩ := List.forall₂_iff_get.1 h.slices
  obtain ⟨i, hi, rfl⟩ := List.getElem_of_mem hp
  exact ⟨_, List.getElem_mem (hlength ▸ hi), hget i hi (hlength ▸ hi)⟩

theorem divides_carve (form : LinkForm) (t : Text) : Divides t (carve form t) := by
  have htext : (carve form t).flatMap (·.text) = t := flatMap_text_carveFrom form [] t
  have hne : ∀ p ∈ carve form t, p.text ≠ [] := fun _ hp => ne_nil_of_mem_carveFrom hp
  have htiles := tiles_fragmentsFrom hne
  have hslices := forall₂_fragmentsFrom [] (carve form t) []
  rw [htext] at htiles
  rw [List.nil_append, List.append_nil, htext] at hslices
  exact ⟨htext, hne, htiles, hslices⟩

end Link

end DoomLex
