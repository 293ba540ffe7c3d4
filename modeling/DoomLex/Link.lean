/-
Links in the text of a token. The text is carved into pieces that cover it in order, each either a
link or plain. An address is one of four schemes followed by address characters, as many as possible
up to the last one that is no closing punctuation; a quoted path is what stands between the first
and the last double quote of a line, if there is anything. Links are taken from left to right.
-/
import DoomLex.Kind
import DoomLex.Text.Basic

namespace DoomLex

/-- A stretch of a text, and whether it is a link. -/
structure Piece where
  text : Text
  link : Bool
deriving DecidableEq, Repr

/-- A stretch that starts a text: what comes before the link in it, the link, what comes after the
link in it, and the text that follows the stretch. -/
structure LinkMatch where
  lead : Text
  link : Text
  trail : Text
  rest : Text

namespace Link

/-! ## Addresses -/

/-- The schemes of addresses, each with its slashes. -/
def schemes : List Text :=
  ["http://".toList, "https://".toList, "ftp://".toList, "file://".toList]

/-- A character that may stand in an address but does not close one. -/
def isPunctuation (c : Char) : Bool := "?!:,.;".toList.contains c

/-- A character that may close an address. -/
def isClosing (c : Char) : Bool := c.isAlphanum || "-+&@#/%=~_|".toList.contains c

/-- A character of an address. -/
def isAddress (c : Char) : Bool := isClosing c || isPunctuation c

/-- What follows a start of a text. -/
def afterStart? : Text → Text → Option Text
  | [], t => some t
  | c :: s, d :: t => if c = d then afterStart? s t else none
  | _ :: _, [] => none

/-- The length of the body of an address at the start of a text: of the run of address characters,
all up to the last closing one. -/
def addressLength (t : Text) : Nat :=
  let run := t.takeWhile isAddress
  run.length - (run.reverse.takeWhile isPunctuation).length

/-- The address with the given scheme at the start of a text. -/
def urlWith? (t scheme : Text) : Option LinkMatch :=
  match afterStart? scheme t with
  | none => none
  | some t' =>
    if addressLength t' = 0 then none
    else some ⟨[], scheme ++ t'.take (addressLength t'), [], t'.drop (addressLength t')⟩

/-- The address at the start of a text. -/
def url? (t : Text) : Option LinkMatch := schemes.findSome? (urlWith? t)

/-! ## Quoted paths -/

/-- Cuts a line at its last double quote. -/
def splitLastQuote? : Text → Option (Text × Text)
  | [] => none
  | c :: t =>
    match splitLastQuote? t with
    | some (before, after) => some (c :: before, after)
    | none => if c = '"' then some ([], t) else none

/-- The quoted path at the start of a text: it reaches to the last quote of the line. -/
def quotedPath? : Text → Option LinkMatch
  | '"' :: t =>
    match splitLastQuote? (t.takeWhile (· != '\n')) with
    | some (c :: path, after) =>
      some ⟨['"'], c :: path, ['"'], after ++ t.dropWhile (· != '\n')⟩
    | _ => none
  | _ => none

/-! ## Matches are stretches of the text -/

theorem append_of_afterStart? {s t r : Text} (h : afterStart? s t = some r) : t = s ++ r := by
  induction s generalizing t with
  | nil => simpa [afterStart?] using h
  | cons c s ih =>
    cases t with
    | nil => simp [afterStart?] at h
    | cons d t =>
      by_cases hc : c = d
      · subst hc; simp [afterStart?] at h; simp [ih h]
      · simp [afterStart?, hc] at h

theorem urlWith?_eq_some {t scheme : Text} {m : LinkMatch} (h : urlWith? t scheme = some m) :
    ∃ t', t = scheme ++ t' ∧ addressLength t' ≠ 0 ∧
      m = ⟨[], scheme ++ t'.take (addressLength t'), [], t'.drop (addressLength t')⟩ := by
  unfold urlWith? at h
  split at h
  · simp at h
  · rename_i t' ht'
    split at h
    · simp at h
    · rename_i hn
      exact ⟨t', append_of_afterStart? ht', hn, (Option.some.inj h).symm⟩

theorem append_of_splitLastQuote? {t before after : Text}
    (h : splitLastQuote? t = some (before, after)) : t = before ++ '"' :: after := by
  induction t generalizing before with
  | nil => simp [splitLastQuote?] at h
  | cons c t ih =>
    unfold splitLastQuote? at h
    split at h
    · rename_i b a hb
      simp only [Option.some.injEq, Prod.mk.injEq] at h
      obtain ⟨rfl, rfl⟩ := h
      simp [ih hb]
    · split at h
      · rename_i hc
        simp only [Option.some.injEq, Prod.mk.injEq] at h
        obtain ⟨rfl, rfl⟩ := h
        simp [hc]
      · simp at h

/-- Whether a text starts with a stretch with a link of the given form. -/
def match? : LinkForm → Text → Option LinkMatch
  | .url => url?
  | .quotedPath => quotedPath?

theorem append_of_match? {form : LinkForm} {t : Text} {m : LinkMatch} (h : match? form t = some m) :
    t = m.lead ++ m.link ++ m.trail ++ m.rest ∧ m.link ≠ [] := by
  cases form with
  | url =>
    obtain ⟨scheme, hs, hm⟩ := List.exists_of_findSome?_eq_some h
    obtain ⟨t', rfl, hn, rfl⟩ := urlWith?_eq_some hm
    refine ⟨by simp, ?_⟩
    simp only [schemes, List.mem_cons, List.not_mem_nil, or_false] at hs
    rcases hs with rfl | rfl | rfl | rfl <;> simp
  | quotedPath =>
    simp only [match?] at h
    unfold quotedPath? at h
    split at h
    · rename_i t
      split at h
      · rename_i c path after hq
        obtain rfl := Option.some.inj h
        have := append_of_splitLastQuote? hq
        refine ⟨?_, by simp⟩
        conv => lhs; rw [← List.takeWhile_append_dropWhile (p := (· != '\n')) (l := t), this]
        simp
      · simp at h
    · simp at h

theorem length_rest_lt {form : LinkForm} {t : Text} {m : LinkMatch} (h : match? form t = some m) :
    m.rest.length < t.length := by
  obtain ⟨ht, hne⟩ := append_of_match? h
  have := List.length_pos_iff.2 hne
  rw [ht]; simp; omega

/-! ## Carving -/

/-- The plain piece of the characters passed, the last one first. -/
def plain (passed : Text) : List Piece :=
  if passed.isEmpty then [] else [⟨passed.reverse, false⟩]

/-- Goes on carving where `passed` holds the plain characters since the last link, the last one
first. -/
def carveFrom (form : LinkForm) (passed : Text) : Text → List Piece
  | [] => plain passed
  | c :: t =>
    match _h : match? form (c :: t) with
    | none => carveFrom form (c :: passed) t
    | some m =>
      plain (m.lead.reverse ++ passed) ++ ⟨m.link, true⟩ :: carveFrom form m.trail.reverse m.rest
termination_by t => t.length
decreasing_by
  · simp
  · exact length_rest_lt _h

/-- The pieces of a text. -/
def carve (form : LinkForm) (t : Text) : List Piece := carveFrom form [] t

end Link

end DoomLex
