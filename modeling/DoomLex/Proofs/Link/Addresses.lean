/-
The addresses in a text. The pieces that are links are addresses, each as long as it can be: in the run of
characters of addresses in which it stands only punctuation is left behind it. No address is left in the plain
pieces, for at none of the characters that are passed over does an address start, whatever part of the text is
looked at. So a piece that is carved once more stays as it is.
-/
import DoomLex.Proofs.Link.Fragments
import Mathlib.Data.List.TakeWhile

namespace DoomLex

namespace Link

/-- The body of an address: characters of addresses, of which the last is no punctuation. -/
structure IsBody (u : Text) : Prop where
  address : ∀ c ∈ u, isAddress c = true
  closed : ∃ c, u.getLast? = some c ∧ isPunctuation c = false

/-- An address: a scheme with its slashes and a body. -/
def IsAddress (u : Text) : Prop := ∃ scheme ∈ schemes, ∃ body, u = scheme ++ body ∧ IsBody body

/-- The run of characters of addresses at the start of a text is punctuation only. -/
def LeavesPunctuation (t : Text) : Prop := ∀ c ∈ t.takeWhile isAddress, isPunctuation c = true

/-! ## Bodies -/

section Bodies

variable {c : Char} {t u : Text}

theorem IsBody.ne_nil (h : IsBody u) : u ≠ [] := by
  rintro rfl
  obtain ⟨c, hc, -⟩ := h.closed
  cases hc

theorem isBody_singleton (hc : isAddress c = true) (hp : isPunctuation c = false) : IsBody [c] :=
  ⟨fun _ hd => List.mem_singleton.1 hd ▸ hc, c, rfl, hp⟩

theorem IsBody.cons (hc : isAddress c = true) (h : IsBody u) : IsBody (c :: u) := by
  obtain ⟨d, hd, hp⟩ := h.closed
  refine ⟨List.forall_mem_cons.2 ⟨hc, h.address⟩, d, ?_, hp⟩
  rw [List.getLast?_cons, hd]
  rfl

/-- What the search for a body takes is one. -/
theorem isBody_take (h : addressLength t ≠ 0) : IsBody (t.take (addressLength t)) := by
  induction t with
  | nil => exact absurd rfl h
  | cons c t ih =>
    rw [addressLength_cons] at h ⊢
    split_ifs at h ⊢ with hc hlength hp
    · exact absurd rfl h
    · exact isBody_singleton hc (eq_false_of_ne_true hp)
    · exact (ih hlength).cons hc
    · exact absurd rfl h

/-- What the search for a body leaves does not go on with it. -/
theorem leavesPunctuation_drop (t : Text) : LeavesPunctuation (t.drop (addressLength t)) := by
  unfold LeavesPunctuation
  induction t with
  | nil => intro c hc; cases hc
  | cons c t ih =>
    rw [addressLength_cons]
    split_ifs with hc hlength hp
    · rw [hlength] at ih
      rw [List.drop_zero, List.takeWhile_cons_of_pos hc]
      exact List.forall_mem_cons.2 ⟨hp, ih⟩
    · rw [hlength] at ih
      exact ih
    · exact ih
    · rw [List.drop_zero, List.takeWhile_cons_of_neg hc]
      intro d hd
      cases hd

/-- Where a text starts with a body one is found. -/
theorem addressLength_ne_zero (h : IsBody u) (rest : Text) : addressLength (u ++ rest) ≠ 0 := by
  intro hzero
  obtain ⟨c, hc, hp⟩ := h.closed
  have hleaves := leavesPunctuation_drop (u ++ rest)
  rw [hzero, List.drop_zero, LeavesPunctuation, List.takeWhile_append_of_pos h.address] at hleaves
  have hc := hleaves c (List.mem_append_left _ (List.mem_of_getLast? hc))
  rw [hp] at hc
  cases hc

end Bodies

/-! ## Addresses at the start of a text -/

section Starts

variable {t u : Text} {m : LinkMatch}

theorem isAddress_of_mem_schemes {scheme : Text} (h : scheme ∈ schemes) : ∀ c ∈ scheme, isAddress c = true := by
  have hall : (schemes.all fun s => s.all isAddress) = true := by decide +kernel
  exact List.all_eq_true.1 (List.all_eq_true.1 hall scheme h)

theorem isAddress_of_url? (h : url? t = some m) :
    IsAddress m.link ∧ LeavesPunctuation m.rest ∧ m.lead = [] ∧ m.trail = [] := by
  obtain ⟨scheme, hscheme, hm⟩ := List.exists_of_findSome?_eq_some h
  obtain ⟨t', rfl, hlength, rfl⟩ := urlWith?_eq_some hm
  exact ⟨⟨scheme, hscheme, _, rfl, isBody_take hlength⟩, leavesPunctuation_drop t', rfl, rfl⟩

theorem afterStart?_self_append (s t : Text) : afterStart? s (s ++ t) = some t := by
  induction s with
  | nil => rfl
  | cons c s ih => rw [List.cons_append, afterStart?, if_pos rfl, ih]

theorem exists_url?_of_isAddress (h : IsAddress u) (rest : Text) : ∃ m, url? (u ++ rest) = some m := by
  obtain ⟨scheme, hscheme, body, rfl, hbody⟩ := h
  rw [← Option.isSome_iff_exists, url?, List.isSome_findSome?, List.any_eq_true]
  refine ⟨scheme, hscheme, ?_⟩
  rw [urlWith?, List.append_assoc, afterStart?_self_append]
  simp [addressLength_ne_zero hbody rest]

/-- An address has characters of addresses only, from the scheme on. -/
theorem IsAddress.isBody (h : IsAddress u) : IsBody u := by
  obtain ⟨scheme, hscheme, body, rfl, haddress, c, hc, hp⟩ := h
  refine ⟨?_, c, ?_, hp⟩
  · intro d hd
    rcases List.mem_append.1 hd with hd | hd
    · exact isAddress_of_mem_schemes hscheme d hd
    · exact haddress d hd
  · rw [List.getLast?_append, hc]
    rfl

/-- An address as a text of its own is a link as a whole. -/
theorem url?_of_isAddress (h : IsAddress u) : url? u = some ⟨[], u, [], []⟩ := by
  obtain ⟨⟨lead, link, trail, rest⟩, hm⟩ := exists_url?_of_isAddress h []
  rw [List.append_nil] at hm
  have hmatch : match? .url u = some ⟨lead, link, trail, rest⟩ := hm
  obtain ⟨ht, -⟩ := append_of_match? hmatch
  obtain ⟨-, hrest, rfl, rfl⟩ := isAddress_of_url? hm
  change u = [] ++ link ++ [] ++ rest at ht
  rw [List.nil_append, List.append_nil] at ht
  obtain ⟨haddress, c, hc, hp⟩ := h.isBody
  -- what is left would be punctuation to its end, which is that of the address
  by_cases hnil : rest = []
  · subst hnil
    rw [List.append_nil] at ht
    rw [hm, ← ht]
  · exfalso
    have hall : ∀ d ∈ rest, isAddress d = true := fun d hd => haddress d (ht ▸ List.mem_append_right _ hd)
    change LeavesPunctuation rest at hrest
    rw [LeavesPunctuation, List.takeWhile_eq_self_iff.2 hall] at hrest
    rw [ht, List.getLast?_append_of_ne_nil _ hnil] at hc
    have hpunctuation := hrest c (List.mem_of_getLast? hc)
    rw [hp] at hpunctuation
    cases hpunctuation

end Starts

/-! ## Addresses among the pieces -/

section Pieces

variable {passed t u x : Text} {p q : Piece} {ps before after : List Piece}

theorem text_of_mem_plain (h : p ∈ plain passed) : p = ⟨passed.reverse, false⟩ := by
  unfold plain at h
  split_ifs at h
  · cases h
  · exact List.mem_singleton.1 h

theorem isChain_plain_append (hq : q.link = true)
    (h : (q :: ps).IsChain fun p q => p.link = true ∨ q.link = true) :
    (plain x ++ q :: ps).IsChain fun p q => p.link = true ∨ q.link = true := by
  unfold plain
  split_ifs
  · exact h
  · exact List.isChain_cons_cons.2 ⟨.inr hq, h⟩

/-- Of two pieces one after the other one is a link. -/
theorem isChain_carveFrom (form : LinkForm) (passed t : Text) :
    (carveFrom form passed t).IsChain fun p q => p.link = true ∨ q.link = true := by
  fun_induction carveFrom form passed t with
  | case1 passed =>
    unfold plain
    split_ifs
    · exact .nil
    · exact .singleton _
  | case2 passed c t h ih => exact ih
  | case3 passed c t m h ih =>
    refine isChain_plain_append rfl (List.isChain_cons.2 ⟨?_, ih⟩)
    intro q _
    exact .inl rfl

/-- A link behind plain pieces is the first one or comes after it. -/
theorem link_of_plain_append (hp : p.link = true) (h : plain x ++ q :: ps = before ++ p :: after) :
    p = q ∧ after = ps ∨ ∃ before', ps = before' ++ p :: after := by
  have hcons : ∀ {before}, q :: ps = before ++ p :: after →
      p = q ∧ after = ps ∨ ∃ before', ps = before' ++ p :: after := by
    intro before h
    rcases List.cons_eq_append_iff.1 h with ⟨rfl, hrest⟩ | ⟨before', rfl, hrest⟩
    · obtain ⟨rfl, rfl⟩ := List.cons.inj hrest
      exact .inl ⟨rfl, rfl⟩
    · exact .inr ⟨before', hrest⟩
  unfold plain at h
  split_ifs at h
  · exact hcons h
  · rcases List.cons_eq_append_iff.1 h with ⟨rfl, hrest⟩ | ⟨before', rfl, hrest⟩
    · obtain ⟨rfl, -⟩ := List.cons.inj hrest
      cases hp
    · exact hcons hrest

/-- A link is an address, and what follows it does not go on with it. -/
theorem isAddress_of_carveFrom (hp : p.link = true) (h : carveFrom .url passed t = before ++ p :: after) :
    IsAddress p.text ∧ LeavesPunctuation (after.flatMap (·.text)) := by
  fun_induction carveFrom LinkForm.url passed t generalizing before with
  | case1 passed =>
    have hplain : p ∈ plain passed := h ▸ List.mem_append_right _ List.mem_cons_self
    rw [text_of_mem_plain hplain] at hp
    cases hp
  | case2 passed c t hm ih => exact ih h
  | case3 passed c t m hm ih =>
    rcases link_of_plain_append hp h with ⟨rfl, rfl⟩ | ⟨before', h⟩
    · obtain ⟨haddress, hrest, -, htrail⟩ := isAddress_of_url? hm
      rw [flatMap_text_carveFrom, htrail]
      exact ⟨haddress, hrest⟩
    · exact ih h

/-- Where no address starts at the characters that are passed over, no plain piece has one in it. -/
theorem not_infix_of_mem_carveFrom (hnone : ∀ x y, passed.reverse = x ++ y → y ≠ [] → url? (y ++ t) = none)
    (hp : p ∈ carveFrom .url passed t) (hlink : p.link = false) (hu : IsAddress u) : ¬ u <:+: p.text := by
  -- the piece of the characters passed over
  have hplain : ∀ {passed t : Text}, (∀ x y, passed.reverse = x ++ y → y ≠ [] → url? (y ++ t) = none) →
      ¬ u <:+: passed.reverse := by
    rintro passed t hnone ⟨x, y, hsplit⟩
    have hne : u ++ y ≠ [] := List.append_ne_nil_of_left_ne_nil hu.isBody.ne_nil y
    have h := hnone x (u ++ y) (by rw [← hsplit, List.append_assoc]) hne
    obtain ⟨m, hm⟩ := exists_url?_of_isAddress hu (y ++ t)
    rw [List.append_assoc, hm] at h
    cases h
  fun_induction carveFrom LinkForm.url passed t with
  | case1 passed =>
    rw [text_of_mem_plain hp]
    exact hplain hnone
  | case2 passed c t h ih =>
    refine ih ?_ hp
    intro x y hsplit hy
    obtain rfl | ⟨y, d, rfl⟩ := List.eq_nil_or_concat y
    · exact absurd rfl hy
    · rw [List.reverse_cons, List.concat_eq_append, ← List.append_assoc] at hsplit
      obtain ⟨hfront, hlast⟩ := List.append_inj' hsplit rfl
      obtain rfl := List.head_eq_of_cons_eq hlast
      by_cases hnil : y = []
      · subst hnil
        exact h
      · have hstart := hnone x y hfront hnil
        simpa using hstart
  | case3 passed c t m h ih =>
    obtain ⟨-, -, hlead, htrail⟩ := isAddress_of_url? h
    rw [hlead, htrail] at hp
    rcases List.mem_append.1 hp with hp | hp
    · rw [text_of_mem_plain hp]
      exact hplain hnone
    · rcases List.mem_cons.1 hp with rfl | hp
      · cases hlink
      · rw [htrail] at ih
        refine ih ?_ hp
        intro x y hsplit hy
        exact absurd (List.append_eq_nil_iff.1 hsplit.symm).2 hy

/-- A text at none of whose characters a link starts is plain. -/
theorem carveFrom_of_none {form : LinkForm} (hnone : ∀ x y, t = x ++ y → y ≠ [] → match? form y = none) :
    carveFrom form passed t = plain (t.reverse ++ passed) := by
  induction t generalizing passed with
  | nil => rw [carveFrom]; rfl
  | cons c t ih =>
    have hc := hnone [] (c :: t) rfl (List.cons_ne_nil _ _)
    have ht : ∀ x y, t = x ++ y → y ≠ [] → match? form y = none := by
      rintro x y rfl hy
      exact hnone (c :: x) y rfl hy
    rw [carveFrom_of_match?_eq_none hc, ih ht, List.reverse_cons, List.append_assoc]
    rfl

theorem carve_of_isAddress (h : IsAddress u) : carve .url u = [⟨u, true⟩] := by
  have hm : match? .url u = some ⟨[], u, [], []⟩ := url?_of_isAddress h
  rw [carve, carveFrom_of_match?_eq_some hm]
  change plain [] ++ ⟨u, true⟩ :: carveFrom .url [] [] = _
  rw [carveFrom]
  rfl

theorem carve_of_not_infix (hne : t ≠ []) (hnone : ∀ u, IsAddress u → ¬ u <:+: t) :
    carve .url t = [⟨t, false⟩] := by
  have hmatch : ∀ x y, t = x ++ y → y ≠ [] → match? .url y = none := by
    intro x y ht _
    cases hm : match? .url y with
    | none => rfl
    | some m =>
      obtain ⟨haddress, -, hlead, htrail⟩ := isAddress_of_url? hm
      obtain ⟨hy, -⟩ := append_of_match? hm
      rw [hlead, htrail, List.nil_append, List.append_nil] at hy
      exact absurd ⟨x, m.rest, by rw [ht, hy, List.append_assoc]⟩ (hnone m.link haddress)
  rw [carve, carveFrom_of_none hmatch, List.append_nil]
  simp [plain, hne]

end Pieces

/-- The loop over the matches of the pattern of addresses cuts a text into its pieces, which divide it. The links
among them are addresses that nothing but punctuation goes on with, no plain piece has an address in it, no two
plain pieces follow each other, and a piece that is carved by itself stays as it is. -/
theorem addresses_carved (t : Text) :
    let ps := carve .url t
    (∀ fragments, Cuts .url t fragments ↔ fragments = fragmentsFrom 0 ps) ∧
    Divides t ps ∧
    (∀ before p after, ps = before ++ p :: after → p.link = true →
      IsAddress p.text ∧ LeavesPunctuation (after.flatMap (·.text))) ∧
    (∀ p ∈ ps, p.link = false → ∀ u, IsAddress u → ¬ u <:+: p.text) ∧
    (ps.IsChain fun p q => p.link = true ∨ q.link = true) ∧
    ∀ p ∈ ps, carve .url p.text = [p] := by
  intro ps
  have hdivides := divides_carve .url t
  have hplain : ∀ p ∈ ps, p.link = false → ∀ u, IsAddress u → ¬ u <:+: p.text := by
    intro p hp hlink u hu
    refine not_infix_of_mem_carveFrom ?_ hp hlink hu
    intro x y hsplit hy
    exact absurd (List.append_eq_nil_iff.1 hsplit.symm).2 hy
  refine ⟨cuts_iff .url t, hdivides, ?_, hplain, isChain_carveFrom .url [] t, ?_⟩
  · intro before p after hsplit hp
    exact isAddress_of_carveFrom hp hsplit
  · intro p hp
    obtain ⟨text, link⟩ := p
    cases link with
    | true =>
      obtain ⟨before, after, hsplit⟩ := List.append_of_mem hp
      exact carve_of_isAddress (isAddress_of_carveFrom rfl hsplit).1
    | false => exact carve_of_not_infix (hdivides.nonempty _ hp) (hplain _ hp rfl)

example : carve .url "é http://ftp://xhttps://a.b/?!, file:// ftp://ü".toList =
    [⟨"é ".toList, false⟩, ⟨"http://ftp://xhttps://a.b/".toList, true⟩,
      ⟨"?!, file:// ftp://ü".toList, false⟩] := by
  decide +kernel

end Link

end DoomLex
