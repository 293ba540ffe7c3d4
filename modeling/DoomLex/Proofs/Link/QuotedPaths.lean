/-
Quoted paths line by line. The quoted path that starts at the first double quote of a line goes up to the last
one, if these two are not next to each other, and no other quote of the line has one: two quotes next to each
other and nothing more are left alone, and behind the last quote the line has nothing to close a path with. So
the matches in a text are those of its lines, at most one in each, and a token that is a preprocessor directive,
which never has a line break in it, has at most one link.
-/
import DoomLex.Proofs.Lexing.Emission
import DoomLex.Proofs.Lexing.Lines
import DoomLex.Proofs.Lexing.Surroundings
import DoomLex.Proofs.Link.Fragments

namespace DoomLex

/-! ## The quotes of a line -/

/-- Lines, each with the byte at which it starts, the first one at byte `n`. -/
def Text.linesFrom (n : Nat) : List Text → List (Nat × Text)
  | [] => []
  | line :: rest => (n, line) :: Text.linesFrom (n + Text.width line + 1) rest

namespace Link

/-- The bytes of the double quotes of a text that starts at byte `n`. -/
def quotesFrom (n : Nat) : Text → List Nat
  | [] => []
  | c :: t => if c = '"' then n :: quotesFrom (n + c.utf8Size) t else quotesFrom (n + c.utf8Size) t

/-- The bytes of the first and of the last double quote of a line that starts at byte `n`, if they are at least
two bytes apart. -/
def outerQuotes? (n : Nat) (line : Text) : Option (Nat × Nat) :=
  match (quotesFrom n line).head?, (quotesFrom n line).getLast? with
  | some first, some last => if first + 2 ≤ last then some (first, last) else none
  | _, _ => none

section Quotes

variable {n : Nat} {x u v line : Text}

/-- A line has no quote, or one, or it has a first and a last one. -/
theorem quotes_cases (line : Text) :
    '"' ∉ line ∨ (∃ x v, line = x ++ '"' :: v ∧ '"' ∉ x ∧ '"' ∉ v) ∨
      ∃ x u v, line = x ++ '"' :: (u ++ '"' :: v) ∧ '"' ∉ x ∧ '"' ∉ v := by
  by_cases hline : '"' ∈ line
  · obtain ⟨x, tail, rfl, hx⟩ := List.eq_append_cons_of_mem hline
    by_cases htail : '"' ∈ tail
    · obtain ⟨v, u, hreverse, hv⟩ := List.eq_append_cons_of_mem (List.mem_reverse.2 htail)
      have htail : tail = u.reverse ++ '"' :: v.reverse := by
        rw [← List.reverse_reverse tail, hreverse]
        simp
      exact .inr (.inr ⟨x, u.reverse, v.reverse, by rw [htail], hx, mt List.mem_reverse.1 hv⟩)
    · exact .inr (.inl ⟨x, tail, rfl, hx, htail⟩)
  · exact .inl hline

theorem quotesFrom_append (n : Nat) (s t : Text) :
    quotesFrom n (s ++ t) = quotesFrom n s ++ quotesFrom (n + Text.width s) t := by
  induction s generalizing n with
  | nil => rfl
  | cons c s ih =>
    rw [List.cons_append, quotesFrom, quotesFrom, ih, Text.width_cons, Nat.add_assoc]
    split_ifs <;> rfl

theorem quotesFrom_of_notMem (h : '"' ∉ u) (n : Nat) : quotesFrom n u = [] := by
  induction u generalizing n with
  | nil => rfl
  | cons c u ih =>
    rw [List.mem_cons, not_or] at h
    rw [quotesFrom, if_neg (Ne.symm h.1), ih h.2]

theorem quotesFrom_quote (n : Nat) (t : Text) : quotesFrom n ('"' :: t) = n :: quotesFrom (n + 1) t := rfl

theorem outerQuotes?_of_notMem (h : '"' ∉ line) (n : Nat) : outerQuotes? n line = none := by
  unfold outerQuotes?
  rw [quotesFrom_of_notMem h]
  rfl

theorem outerQuotes?_one (hx : '"' ∉ x) (hv : '"' ∉ v) (n : Nat) : outerQuotes? n (x ++ '"' :: v) = none := by
  have hquotes : quotesFrom n (x ++ '"' :: v) = [n + Text.width x] := by
    rw [quotesFrom_append, quotesFrom_of_notMem hx, quotesFrom_quote, quotesFrom_of_notMem hv, List.nil_append]
  unfold outerQuotes?
  rw [hquotes]
  exact if_neg (by simp)

theorem outerQuotes?_two (hx : '"' ∉ x) (hv : '"' ∉ v) (n : Nat) :
    outerQuotes? n (x ++ '"' :: (u ++ '"' :: v)) =
      if u = [] then none else some (n + Text.width x, n + Text.width x + 1 + Text.width u) := by
  have hquotes : quotesFrom n (x ++ '"' :: (u ++ '"' :: v)) =
      (n + Text.width x) :: (quotesFrom (n + Text.width x + 1) u ++ [n + Text.width x + 1 + Text.width u]) := by
    rw [quotesFrom_append, quotesFrom_of_notMem hx, quotesFrom_quote, quotesFrom_append, quotesFrom_quote,
      quotesFrom_of_notMem hv, List.nil_append]
  have hlast : (quotesFrom n (x ++ '"' :: (u ++ '"' :: v))).getLast? =
      some (n + Text.width x + 1 + Text.width u) := by
    rw [hquotes, ← List.cons_append, List.getLast?_concat]
  unfold outerQuotes?
  rw [hlast, hquotes, List.head?_cons]
  by_cases hu : u = []
  · subst hu
    rw [if_pos rfl]
    exact if_neg (by simp)
  · have hpos := Text.width_pos hu
    rw [if_neg hu]
    exact if_pos (by omega)

theorem outerQuotes?_eq_some {first last : Nat} (h : outerQuotes? n line = some (first, last)) :
    ∃ x u v, line = x ++ '"' :: (u ++ '"' :: v) ∧ '"' ∉ x ∧ '"' ∉ v ∧
      first = n + Text.width x ∧ last = n + Text.width x + 1 + Text.width u := by
  rcases quotes_cases line with hnone | ⟨x, v, rfl, hx, hv⟩ | ⟨x, u, v, rfl, hx, hv⟩
  · rw [outerQuotes?_of_notMem hnone] at h
    cases h
  · rw [outerQuotes?_one hx hv] at h
    cases h
  · rw [outerQuotes?_two hx hv] at h
    split_ifs at h
    obtain ⟨rfl, rfl⟩ := Prod.mk.inj (Option.some.inj h)
    exact ⟨x, u, v, rfl, hx, hv, rfl, rfl⟩

end Quotes

/-! ## The matches in a line -/

section Line

variable {n : Nat} {u v rest : Text} {found : List (Nat × Nat)}

theorem splitLastQuote?_of_notMem (h : '"' ∉ v) : splitLastQuote? v = none := by
  cases hcut : splitLastQuote? v with
  | none => rfl
  | some cut =>
    rw [append_of_splitLastQuote? hcut] at h
    simp at h

theorem splitLastQuote?_append (hv : '"' ∉ v) (u : Text) : splitLastQuote? (u ++ '"' :: v) = some (u, v) := by
  induction u with
  | nil =>
    rw [List.nil_append, splitLastQuote?, splitLastQuote?_of_notMem hv]
    rfl
  | cons c u ih => rw [List.cons_append, splitLastQuote?, ih]

theorem takeWhile_line (hu : '\n' ∉ u) (hrest : rest.AtLineEnd) :
    (u ++ rest).takeWhile (· != '\n') = u ∧ (u ++ rest).dropWhile (· != '\n') = rest := by
  have hall : ∀ c ∈ u, (c != '\n') = true := by
    rintro c hc
    exact bne_iff_ne.2 fun heq => hu (heq ▸ hc)
  rw [List.takeWhile_append_of_pos hall, List.dropWhile_append_of_pos hall]
  cases rest with
  | nil => simp
  | cons c rest =>
    obtain rfl : c = '\n' := hrest c rfl
    simp

theorem quotedPath?_last (hv : '"' ∉ v) (hline : '\n' ∉ v) (hrest : rest.AtLineEnd) :
    quotedPath? ('"' :: (v ++ rest)) = none := by
  rw [quotedPath?, (takeWhile_line hline hrest).1, splitLastQuote?_of_notMem hv]

theorem quotedPath?_adjacent (hv : '"' ∉ v) (hline : '\n' ∉ v) (hrest : rest.AtLineEnd) :
    quotedPath? ('"' :: ('"' :: v ++ rest)) = none := by
  have hline' : '\n' ∉ '"' :: v := by simp [hline]
  rw [quotedPath?, (takeWhile_line hline' hrest).1]
  have hsplit := splitLastQuote?_append hv []
  rw [List.nil_append] at hsplit
  rw [hsplit]

theorem quotedPath?_outer (hu : u ≠ []) (hv : '"' ∉ v) (hline : '\n' ∉ u ++ '"' :: v) (hrest : rest.AtLineEnd) :
    quotedPath? ('"' :: (u ++ '"' :: v ++ rest)) = some ⟨['"'], u, ['"'], v ++ rest⟩ := by
  obtain ⟨c, path, rfl⟩ := List.exists_cons_of_ne_nil hu
  obtain ⟨htake, hdrop⟩ := takeWhile_line hline hrest
  rw [quotedPath?, htake, splitLastQuote?_append hv, hdrop]

theorem finds_pass {c : Char} {t : Text} (h : quotedPath? (c :: t) = none)
    (ht : LinkForm.quotedPath.pattern.Finds (n + c.utf8Size) t found) :
    LinkForm.quotedPath.pattern.Finds n (c :: t) found :=
  .pass (first?_eq_none_iff.2 h) ht

theorem finds_of_notMem (hu : '"' ∉ u)
    (h : LinkForm.quotedPath.pattern.Finds (n + Text.width u) rest found) :
    LinkForm.quotedPath.pattern.Finds n (u ++ rest) found := by
  induction u generalizing n with
  | nil => exact h
  | cons c u ih =>
    rw [List.mem_cons, not_or] at hu
    rw [Text.width_cons, ← Nat.add_assoc] at h
    exact finds_pass (quotedPath?_eq_none (Ne.symm hu.1) _) (ih hu.2 h)

/-- Behind the last quote of a line nothing is found in it. -/
theorem finds_last (hv : '"' ∉ v) (hline : '\n' ∉ v) (hrest : rest.AtLineEnd)
    (h : LinkForm.quotedPath.pattern.Finds (n + Text.width ('"' :: v)) rest found) :
    LinkForm.quotedPath.pattern.Finds n ('"' :: (v ++ rest)) found := by
  rw [Text.width_cons, ← Nat.add_assoc] at h
  exact finds_pass (quotedPath?_last hv hline hrest) (finds_of_notMem hv h)

/-- From the first quote of a line the match goes to the last one, if there is something between them. -/
theorem finds_outer (hv : '"' ∉ v) (hline : '\n' ∉ u ++ '"' :: v) (hrest : rest.AtLineEnd)
    (h : LinkForm.quotedPath.pattern.Finds (n + Text.width ('"' :: (u ++ '"' :: v))) rest found) :
    LinkForm.quotedPath.pattern.Finds n ('"' :: (u ++ '"' :: v ++ rest))
      ((if u = [] then [] else [(n, n + 1 + Text.width u + 1)]) ++ found) := by
  have hquote : Char.utf8Size '"' = 1 := rfl
  have hvline : '\n' ∉ v := fun hmem => hline (List.mem_append_right _ (List.mem_cons_of_mem _ hmem))
  by_cases hu : u = []
  · subst hu
    rw [if_pos rfl, List.nil_append]
    rw [List.nil_append, Text.width_cons, ← Nat.add_assoc] at h
    exact finds_pass (quotedPath?_adjacent hv hvline hrest) (finds_last hv hvline hrest h)
  · have hmatch := quotedPath?_outer hu hv hline hrest
    have hfirst : LinkForm.quotedPath.pattern.first? ('"' :: (u ++ '"' :: v ++ rest)) =
        some (['"'] ++ u ++ ['"'], v ++ rest) := by
      rw [first?_pattern, match?, hmatch]
      rfl
    have hstop : n + Text.width (['"'] ++ u ++ ['"']) = n + 1 + Text.width u + 1 := by
      simp only [Text.width_append, Text.width_cons, Text.width_nil, hquote]
      omega
    have hwidth : n + Text.width ('"' :: (u ++ '"' :: v)) =
        n + Text.width (['"'] ++ u ++ ['"']) + Text.width v := by
      simp only [Text.width_append, Text.width_cons, Text.width_nil]
      omega
    rw [hwidth] at h
    rw [if_neg hu, ← hstop]
    exact .take hfirst (by simp) (finds_of_notMem hv h)

/-- The match in a line goes from its first to its last quote. -/
theorem finds_line {line : Text} (hline : '\n' ∉ line) (hrest : rest.AtLineEnd)
    (h : LinkForm.quotedPath.pattern.Finds (n + Text.width line) rest found) :
    LinkForm.quotedPath.pattern.Finds n (line ++ rest)
      (((outerQuotes? n line).map fun (first, last) => (first, last + 1)).toList ++ found) := by
  rcases quotes_cases line with hnone | ⟨x, v, rfl, hx, hv⟩ | ⟨x, u, v, rfl, hx, hv⟩
  · rw [outerQuotes?_of_notMem hnone]
    exact finds_of_notMem hnone h
  · rw [outerQuotes?_one hx hv, List.append_assoc]
    rw [Text.width_append, ← Nat.add_assoc] at h
    have hv' : '\n' ∉ v := fun hmem => hline (List.mem_append_right _ (List.mem_cons_of_mem _ hmem))
    exact finds_of_notMem hx (finds_last hv hv' hrest h)
  · rw [outerQuotes?_two hx hv, List.append_assoc]
    rw [Text.width_append, ← Nat.add_assoc] at h
    have hv' : '\n' ∉ u ++ '"' :: v :=
      fun hmem => hline (List.mem_append_right _ (List.mem_cons_of_mem _ hmem))
    have houter := finds_of_notMem hx (finds_outer hv hv' hrest h)
    split_ifs at houter ⊢ <;> exact houter

end Line

/-! ## The matches in a text -/

theorem finds_joinLines {lines : List Text} (hne : lines ≠ []) (h : ∀ line ∈ lines, '\n' ∉ line) (n : Nat) :
    LinkForm.quotedPath.pattern.Finds n (Text.joinLines lines)
      ((Text.linesFrom n lines).flatMap fun (start, line) =>
        ((outerQuotes? start line).map fun (first, last) => (first, last + 1)).toList) := by
  induction lines generalizing n with
  | nil => exact absurd rfl hne
  | cons line rest ih =>
    obtain ⟨hline, hrest⟩ := List.forall_mem_cons.1 h
    rw [Text.linesFrom, List.flatMap_cons]
    cases rest with
    | nil =>
      have hend : LinkForm.quotedPath.pattern.Finds (n + Text.width line) [] [] :=
        .done (first?_eq_none_iff.2 rfl)
      have hfinds := finds_line hline Text.atLineEnd_nil hend
      rw [List.append_nil] at hfinds
      rw [Text.joinLines_singleton]
      exact hfinds
    | cons next rest =>
      rw [Text.joinLines_cons_cons]
      have hnewline : '\n' ≠ '"' := by decide
      exact finds_line hline (Text.atLineEnd_newline _)
        (finds_pass (quotedPath?_eq_none hnewline _) (ih (List.cons_ne_nil _ _) hrest _))

/-- The links in a text stand between the outer quotes of its lines. -/
theorem links_carve_quotedPath (t : Text) :
    (fragmentsFrom 0 (carve .quotedPath t)).filter (·.link) =
      (Text.linesFrom 0 (Text.lines t)).filterMap fun (start, line) =>
        (outerQuotes? start line).map fun (first, last) => ⟨first + 1, last, true⟩ := by
  have hfinds := finds_joinLines (Text.lines_ne_nil t) (fun _ => Text.newline_notMem_of_mem_lines) 0
  rw [Text.joinLines_lines] at hfinds
  rw [← (cuts_iff .quotedPath t _).1 ⟨_, hfinds, rfl⟩,
    filter_link_cutAlong fun _ htaken => (inside_of_finds hfinds Text.width_nil htaken).1, List.map_flatMap,
    List.filterMap_eq_flatMap_toList]
  refine List.flatMap_congr fun l _ => ?_
  rw [← Option.toList_map, Option.map_map]
  rfl

/-! ## Preprocessor directives -/

section Directive

variable {t : Text} {p : Piece}

theorem links_carve_line (h : '\n' ∉ t) :
    (fragmentsFrom 0 (carve .quotedPath t)).filter (·.link) =
      ((outerQuotes? 0 t).map fun (first, last) => ⟨first + 1, last, true⟩).toList := by
  have hlines : Text.lines t = [t] := List.splitOn_eq_singleton h
  rw [links_carve_quotedPath, hlines, List.filterMap_eq_flatMap_toList]
  exact List.append_nil _

/-- A link in a line is what stands between its first and its last quote. -/
theorem exists_outer_of_mem_carve (h : '\n' ∉ t) (hp : p ∈ carve .quotedPath t) (hlink : p.link = true) :
    ∃ before after, t = before ++ '"' :: (p.text ++ '"' :: after) ∧ '"' ∉ before ∧ '"' ∉ after := by
  obtain ⟨f, hf, hslice, hflink⟩ := (divides_carve .quotedPath t).exists_fragment hp
  have hmem : f ∈ (fragmentsFrom 0 (carve .quotedPath t)).filter (·.link) :=
    List.mem_filter.2 ⟨hf, hflink.trans hlink⟩
  rw [links_carve_line h, Option.mem_toList] at hmem
  obtain ⟨⟨first, last⟩, houter, rfl⟩ := Option.map_eq_some_iff.1 hmem
  obtain ⟨x, u, v, ht, hx, hv, rfl, rfl⟩ := outerQuotes?_eq_some houter
  have hinside := Text.slice?_append (x ++ ['"']) u ('"' :: v)
  have hwidth : Text.width (x ++ ['"']) = 0 + Text.width x + 1 := by
    rw [Text.width_append, Nat.zero_add]
    rfl
  have htext : x ++ ['"'] ++ u ++ '"' :: v = t := by simp [ht]
  rw [hwidth, htext, hslice] at hinside
  exact ⟨x, v, Option.some.inj hinside ▸ ht, hx, hv⟩

end Directive

theorem countP_link_carved {k : Token} {form : LinkForm} (h : k.kind.linkForm? = some form) :
    k.carved.countP (·.link) = ((fragmentsFrom 0 (carve form k.text)).filter (·.link)).length := by
  unfold Token.carved
  rw [h, ← List.countP_eq_length_filter, ← map_layOut k.kind k.offset 0, List.countP_map, List.countP_map]
  rfl

theorem exists_piece_of_mem_carved {k piece : Token} {form : LinkForm} (h : k.kind.linkForm? = some form)
    (hpiece : piece ∈ k.carved) : ∃ p ∈ carve form k.text, p.text = piece.text ∧ p.link = piece.link := by
  unfold Token.carved at hpiece
  rw [h] at hpiece
  obtain ⟨q, hq, rfl⟩ := List.mem_map.1 hpiece
  obtain ⟨s, hs, -, htext, hlink⟩ := exists_stretch_of_mem_layOut _ _ _ hq
  obtain ⟨p, hp, rfl⟩ := List.mem_map.1 hs
  exact ⟨p, hp, htext.symm, hlink.symm⟩

/-- Only a token that is a line break has a line break in it. -/
theorem newline_notMem_of_mem_uncarved {l : Language} {t : Text} {state : LineState} {offset : Nat} {k : Token}
    (hk : k ∈ (l.uncarved t state offset).tokens) (hkind : k.kind ≠ .whitespace) : '\n' ∉ k.text := by
  obtain ⟨s, hs, hskind, htext, -⟩ := exists_stretch_of_mem_layOut _ _ _ hk
  obtain ⟨r, hr, hs⟩ := List.mem_flatMap.1 hs
  rw [Run.whole, List.map_singleton, List.mem_singleton] at hs
  subst hs
  rcases Language.newline_notMem_of_mem_scan hr with rfl | hnewline
  · exact absurd hskind hkind
  · rwa [htext]

/-- Carving quoted paths is a loop over the matches of their pattern, and divides the text. The links are what
stands between the first and the last double quote of a line, where these are at least two bytes apart; in a line
without two such quotes there is none. Taking a byte off both ends of a match leaves something, and cuts between
two characters. So a token that is a preprocessor directive has at most one link, between its first and its last
quote. -/
theorem quoted_paths_carved (t : Text) :
    let ps := carve .quotedPath t
    (∀ fragments, Cuts .quotedPath t fragments ↔ fragments = fragmentsFrom 0 ps) ∧
    Divides t ps ∧
    ((fragmentsFrom 0 ps).filter (·.link) =
      (Text.linesFrom 0 (Text.lines t)).filterMap fun (start, line) =>
        (outerQuotes? start line).map fun (first, last) => ⟨first + 1, last, true⟩) ∧
    (∀ found, LinkForm.quotedPath.pattern.Finds 0 t found → ∀ taken ∈ found,
      taken.1 + 1 < taken.2 - 1 ∧ t.IsBoundary (taken.1 + 1) ∧ t.IsBoundary (taken.2 - 1)) ∧
    ∀ (l : Language) (state : LineState) (offset : Nat),
      (l.tokenize t state offset).tokens = (l.uncarved t state offset).tokens.flatMap Token.carved ∧
      ∀ k ∈ (l.uncarved t state offset).tokens, k.kind = .preprocessor →
        k.carved.countP (·.link) ≤ 1 ∧
        ∀ piece ∈ k.carved, piece.link = true →
          ∃ before after, k.text = before ++ '"' :: (piece.text ++ '"' :: after) ∧
            '"' ∉ before ∧ '"' ∉ after := by
  intro ps
  refine ⟨cuts_iff .quotedPath t, divides_carve .quotedPath t, links_carve_quotedPath t, ?_, ?_⟩
  · intro found hfound taken htaken
    exact inside_of_finds hfound Text.width_nil htaken
  · intro l state offset
    refine ⟨layOut_stretches_eq_flatMap_carved offset 0 (l.scan state t).1, ?_⟩
    intro k hk hkind
    have hform : k.kind.linkForm? = some .quotedPath := by rw [hkind]; rfl
    have hline : '\n' ∉ k.text := newline_notMem_of_mem_uncarved hk (by rw [hkind]; decide)
    constructor
    · rw [countP_link_carved hform, links_carve_line hline]
      cases outerQuotes? 0 k.text <;> simp
    · intro piece hpiece hlink
      obtain ⟨p, hp, htext, hplink⟩ := exists_piece_of_mem_carved hform hpiece
      rw [← htext]
      exact exists_outer_of_mem_carve hline hp (hplink.trans hlink)

example : carve .quotedPath "\"\"é\"\n\"\"\n\"".toList =
    [⟨['"'], false⟩, ⟨"\"é".toList, true⟩, ⟨"\"\n\"\"\n\"".toList, false⟩] := by
  decide +kernel

end Link

end DoomLex
