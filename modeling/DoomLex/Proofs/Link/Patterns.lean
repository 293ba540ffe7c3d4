/-
Links as matches of patterns. A pattern may match the start of a text in several ways, of which one comes
first: many characters before fewer, the first of two patterns before the second. Addresses and quoted paths
are each given by a pattern, and the stretch with a link at the start of a text is the first way in which the
pattern of its form matches there. A run of characters that is followed by something else is tried from its
longest start down, and this is where the last closing character and the last quote come from.
-/
import DoomLex.Link
import Mathlib.Tactic.SplitIfs

namespace DoomLex

/-- A pattern of texts. -/
inductive Pattern where
  /-- This text. -/
  | word (w : Text)
  /-- A character of a class. -/
  | char (p : Char → Bool)
  /-- Characters of a class, as many as there are or fewer, possibly none. -/
  | many (p : Char → Bool)
  /-- A match of the one and then of the other. -/
  | seq (first second : Pattern)
  /-- A match of the one, or else of the other. -/
  | either (first second : Pattern)

namespace Pattern

/-- What a run of characters of a class may take from a text and leave of it, the longest run first. -/
def runs (p : Char → Bool) : Text → List (Text × Text)
  | [] => [([], [])]
  | c :: t => if p c then (runs p t).map (fun x => (c :: x.1, x.2)) ++ [([], c :: t)] else [([], c :: t)]

/-- The ways in which a pattern matches the start of a text, each as what it takes and what it leaves, in the
order in which they are tried. -/
def ways : Pattern → Text → List (Text × Text)
  | word w, t => ((Link.afterStart? w t).map fun rest => (w, rest)).toList
  | char p, t => match t with
    | [] => []
    | c :: rest => if p c then [([c], rest)] else []
  | many p, t => runs p t
  | seq first second, t =>
    (first.ways t).flatMap fun x => (second.ways x.2).map fun y => (x.1 ++ y.1, y.2)
  | either first second, t => first.ways t ++ second.ways t

/-- The match of a pattern at the start of a text: the first way in which it matches. -/
def first? (p : Pattern) (t : Text) : Option (Text × Text) := (p.ways t).head?

/-! ## The first way, pattern by pattern -/

theorem first?_word (w t : Text) : (word w).first? t = (Link.afterStart? w t).map fun rest => (w, rest) := by
  unfold first? ways
  exact Option.head?_toList

theorem first?_seq (p q : Pattern) (t : Text) :
    (seq p q).first? t =
      (p.ways t).findSome? fun x => (q.first? x.2).map fun y => (x.1 ++ y.1, y.2) := by
  unfold first?
  rw [ways, List.head?_flatMap]
  simp only [List.head?_map]

theorem first?_word_seq (w : Text) (q : Pattern) (t : Text) :
    (seq (word w) q).first? t =
      (Link.afterStart? w t).bind fun rest => (q.first? rest).map fun y => (w ++ y.1, y.2) := by
  rw [first?_seq, ways]
  cases Link.afterStart? w t <;> simp

theorem first?_char_seq (p : Char → Bool) (q : Pattern) (c : Char) (t : Text) :
    (seq (char p) q).first? (c :: t) = if p c then (q.first? t).map fun y => (c :: y.1, y.2) else none := by
  rw [first?_seq, ways]
  split_ifs <;> simp

/-- A run goes on over a character of its class if what follows it matches then, and else ends before it. -/
theorem first?_many_seq (p : Char → Bool) (q : Pattern) (c : Char) (t : Text) :
    (seq (many p) q).first? (c :: t) =
      if p c then (((seq (many p) q).first? t).map fun y => (c :: y.1, y.2)).or (q.first? (c :: t))
      else q.first? (c :: t) := by
  rw [first?_seq, first?_seq, ways, ways, runs]
  split_ifs
  · rw [List.findSome?_append, List.findSome?_map, List.map_findSome?]
    simp [Function.comp_def]
  · simp

theorem first?_char (p : Char → Bool) (c : Char) (t : Text) :
    (char p).first? (c :: t) = if p c then some ([c], t) else none := by
  show (if p c then [([c], t)] else []).head? = _
  split_ifs <;> rfl

theorem first?_either_seq (p q r : Pattern) (t : Text) :
    (seq (either p q) r).first? t = ((seq p r).first? t).or ((seq q r).first? t) := by
  rw [first?_seq, first?_seq, first?_seq, ways, List.findSome?_append]

theorem first?_seq_seq (p q r : Pattern) (t : Text) :
    (seq (seq p q) r).first? t = (seq p (seq q r)).first? t := by
  unfold first?
  simp only [ways, List.flatMap_assoc, List.flatMap_map, List.map_flatMap, List.map_map, Function.comp_def,
    List.append_assoc]

end Pattern

open Pattern

/-- The pattern of the stretches with a link of a form. -/
def LinkForm.pattern : LinkForm → Pattern
  | .url =>
    seq
      (either (seq (word "http".toList) (either (word "s".toList) (word [])))
        (either (word "ftp".toList) (word "file".toList)))
      (seq (word "://".toList)
        (seq (many fun c => c.isAlphanum || "-+&@#/%?=~_|!:,.;".toList.contains c)
          (char fun c => c.isAlphanum || "-+&@#/%=~_|".toList.contains c)))
  | .quotedPath => seq (word ['"']) (seq (char (· != '\n')) (seq (many (· != '\n')) (word ['"'])))

namespace Link

/-! ## The classes of the characters of addresses -/

theorem isAddress_eq (c : Char) :
    isAddress c = (c.isAlphanum || "-+&@#/%?=~_|!:,.;".toList.contains c) := by
  simp only [isAddress, isClosing, isPunctuation, String.reduceToList, List.contains_cons, List.contains_nil,
    Bool.or_false]
  ac_rfl

/-- An address is closed by the characters of addresses other than punctuation. -/
theorem isClosing_eq (c : Char) : isClosing c = (isAddress c && !isPunctuation c) := by
  have hdisjoint : isPunctuation c = true → isClosing c = false := by
    intro h
    simp only [isPunctuation, List.contains_iff_mem, String.reduceToList, List.mem_cons, List.not_mem_nil,
      or_false] at h
    rcases h with rfl | rfl | rfl | rfl | rfl | rfl <;> decide
  unfold isAddress
  cases hp : isPunctuation c with
  | false => simp
  | true => simp [hdisjoint hp]

/-! ## Addresses -/

/-- The characters of a class at the end of a list reach its first one only over all the others. -/
theorem length_takeWhile_reverse_cons {p : Char → Bool} (c : Char) (t : Text) :
    ((c :: t).reverse.takeWhile p).length =
      if (t.reverse.takeWhile p).length = t.length then t.length + if p c then 1 else 0
      else (t.reverse.takeWhile p).length := by
  rw [List.reverse_cons, List.takeWhile_append, List.length_reverse]
  split_ifs with hall hc
  · simp [List.takeWhile_cons_of_pos hc]
  · simp [List.takeWhile_cons_of_neg hc]
  · rfl

/-- The length of the body of an address, character by character. -/
theorem addressLength_cons (c : Char) (t : Text) :
    addressLength (c :: t) =
      if isAddress c then
        if addressLength t = 0 then if isPunctuation c then 0 else 1 else addressLength t + 1
      else 0 := by
  unfold addressLength
  by_cases hc : isAddress c = true
  · have hlength := (List.takeWhile_sublist isPunctuation (l := (t.takeWhile isAddress).reverse)).length_le
    rw [List.length_reverse] at hlength
    simp only [List.takeWhile_cons_of_pos hc, length_takeWhile_reverse_cons, if_pos hc, List.length_cons]
    split_ifs <;> omega
  · rw [List.takeWhile_cons_of_neg hc, if_neg hc]
    rfl

/-- The body of an address is what its pattern matches first. -/
theorem first?_body (t : Text) :
    (seq (many isAddress) (char isClosing)).first? t =
      if addressLength t = 0 then none else some (t.take (addressLength t), t.drop (addressLength t)) := by
  induction t with
  | nil => rfl
  | cons c t ih =>
    rw [first?_many_seq, ih, first?_char, addressLength_cons, isClosing_eq]
    cases isAddress c with
    | false => rfl
    | true =>
      by_cases hlength : addressLength t = 0
      · -- no start of the run after the character is a body, so that it is the last one or there is none
        cases isPunctuation c <;> simp [hlength]
      · simp [hlength]

theorem afterStart?_append (s s' t : Text) :
    afterStart? (s ++ s') t = (afterStart? s t).bind (afterStart? s') := by
  induction s generalizing t with
  | nil => rfl
  | cons c s ih =>
    cases t with
    | nil => rfl
    | cons d t =>
      by_cases hc : c = d
      · simp [afterStart?, hc, ih]
      · simp [afterStart?, hc]

/-- The pattern of an address from the slashes on. -/
def afterScheme : Pattern := seq (word "://".toList) (seq (many isAddress) (char isClosing))

theorem pattern_url :
    LinkForm.url.pattern =
      seq
        (either (seq (word "http".toList) (either (word "s".toList) (word [])))
          (either (word "ftp".toList) (word "file".toList)))
        afterScheme := by
  rw [afterScheme, funext isAddress_eq]
  rfl

/-- The match of an address with a scheme. -/
def withScheme? (t scheme : Text) : Option (Text × Text) :=
  (afterStart? scheme t).bind fun rest => (afterScheme.first? rest).map fun y => (scheme ++ y.1, y.2)

theorem map_urlWith? (t scheme : Text) :
    (urlWith? t (scheme ++ "://".toList)).map (fun m => (m.lead ++ m.link ++ m.trail, m.rest)) =
      withScheme? t scheme := by
  unfold urlWith? withScheme? afterScheme
  rw [afterStart?_append]
  cases afterStart? scheme t with
  | none => rfl
  | some rest =>
    rw [Option.bind_some, Option.bind_some, first?_word_seq]
    cases afterStart? "://".toList rest with
    | none => rfl
    | some body =>
      rw [Option.bind_some, first?_body]
      split_ifs with hlength <;> simp [hlength]

theorem first?_word_seq_afterScheme (scheme t : Text) :
    (seq (word scheme) afterScheme).first? t = withScheme? t scheme := first?_word_seq ..

theorem withScheme?_https (t : Text) :
    withScheme? t "https".toList =
      (afterStart? "http".toList t).bind fun rest => (afterStart? "s".toList rest).bind fun rest' =>
        (afterScheme.first? rest').map fun y => ("https".toList ++ y.1, y.2) := by
  have happend : "https".toList = "http".toList ++ "s".toList := rfl
  unfold withScheme?
  rw [happend, afterStart?_append, Option.bind_assoc]

theorem first?_http (t : Text) :
    (seq (seq (word "http".toList) (either (word "s".toList) (word []))) afterScheme).first? t =
      (withScheme? t "https".toList).or (withScheme? t "http".toList) := by
  rw [first?_seq_seq, first?_word_seq, withScheme?_https, withScheme?]
  cases afterStart? "http".toList t with
  | none => rfl
  | some rest =>
    rw [Option.bind_some, Option.bind_some, Option.bind_some, first?_either_seq, first?_word_seq,
      first?_word_seq, Option.map_or]
    cases afterStart? "s".toList rest <;> simp [afterStart?, Function.comp_def]

/-- Of the two schemes of which one starts with the other the longer one is tried first, but only one of them
can match. -/
theorem or_withScheme? (t : Text) :
    (withScheme? t "https".toList).or (withScheme? t "http".toList) =
      (withScheme? t "http".toList).or (withScheme? t "https".toList) := by
  rw [withScheme?_https, withScheme?]
  cases afterStart? "http".toList t with
  | none => rfl
  | some rest =>
    rw [Option.bind_some, Option.bind_some]
    cases hs : afterStart? "s".toList rest with
    | none => simp
    | some rest' =>
      -- no slashes stand before the letter
      have hrest : rest = 's' :: rest' := append_of_afterStart? hs
      have hnone : afterScheme.first? rest = none := by
        rw [hrest, afterScheme, first?_word_seq]
        rfl
      simp [hnone]

theorem findSome?_cons_or {α β : Type} (f : α → Option β) (a : α) (as : List α) :
    (a :: as).findSome? f = (f a).or (as.findSome? f) := by
  rw [List.findSome?_cons]
  cases f a <;> rfl

/-- The match of the pattern of addresses is the address at the start of the text. -/
theorem first?_url (t : Text) :
    LinkForm.url.pattern.first? t = (url? t).map fun m => (m.lead ++ m.link ++ m.trail, m.rest) := by
  have hurl : (url? t).map (fun m => (m.lead ++ m.link ++ m.trail, m.rest)) =
      ["http", "https", "ftp", "file"].findSome? fun s => withScheme? t s.toList := by
    have hschemes : schemes = ["http", "https", "ftp", "file"].map fun s => s.toList ++ "://".toList := rfl
    rw [url?, hschemes, List.map_findSome?, List.findSome?_map]
    exact congrArg (List.findSome? · _) (funext fun s => map_urlWith? t s.toList)
  rw [hurl, pattern_url, first?_either_seq, first?_either_seq, first?_http, first?_word_seq_afterScheme,
    first?_word_seq_afterScheme, or_withScheme?]
  simp only [findSome?_cons_or, List.findSome?_nil, Option.or_none, Option.or_assoc]

/-! ## Quoted paths -/

/-- A run up to a quote goes to the last quote of the line. -/
theorem first?_toLastQuote (t : Text) :
    (seq (many (· != '\n')) (word ['"'])).first? t =
      (splitLastQuote? (t.takeWhile (· != '\n'))).map fun (before, after) =>
        (before ++ ['"'], after ++ t.dropWhile (· != '\n')) := by
  induction t with
  | nil => rfl
  | cons c t ih =>
    rw [first?_many_seq, ih, first?_word]
    by_cases hc : c = '\n'
    · subst hc
      rfl
    · have hline : (c != '\n') = true := bne_iff_ne.2 hc
      rw [if_pos hline, List.takeWhile_cons_of_pos (p := (· != '\n')) hline,
        List.dropWhile_cons_of_pos (p := (· != '\n')) hline, splitLastQuote?]
      cases splitLastQuote? (t.takeWhile (· != '\n')) with
      | some cut => rfl
      | none =>
        by_cases hquote : c = '"'
        · subst hquote
          simp [afterStart?]
        · simp [afterStart?, hquote, Ne.symm hquote]

theorem quotedPath?_eq_none {c : Char} (h : c ≠ '"') (t : Text) : quotedPath? (c :: t) = none := by
  unfold quotedPath?
  split
  · rename_i heq
    exact absurd (List.cons.inj heq).1 h
  · rfl

/-- The match of the pattern of quoted paths is the quoted path at the start of the text. -/
theorem first?_quotedPath (t : Text) :
    LinkForm.quotedPath.pattern.first? t =
      (quotedPath? t).map fun m => (m.lead ++ m.link ++ m.trail, m.rest) := by
  unfold LinkForm.pattern
  rw [first?_word_seq]
  cases t with
  | nil => rfl
  | cons c t =>
    by_cases hquote : c = '"'
    · subst hquote
      have hstart : afterStart? ['"'] ('"' :: t) = some t := by simp [afterStart?]
      rw [hstart, Option.bind_some, quotedPath?]
      cases t with
      | nil => rfl
      | cons d t =>
        rw [first?_char_seq, first?_toLastQuote]
        by_cases hd : d = '\n'
        · subst hd
          rfl
        · have hline : (d != '\n') = true := bne_iff_ne.2 hd
          rw [if_pos hline, List.takeWhile_cons_of_pos (p := (· != '\n')) hline,
            List.dropWhile_cons_of_pos (p := (· != '\n')) hline, splitLastQuote?]
          -- a last quote that is the character after the first one leaves nothing between them
          cases splitLastQuote? (t.takeWhile (· != '\n')) with
          | some cut => simp
          | none => split_ifs <;> rfl
    · have hstart : afterStart? ['"'] (c :: t) = none := by simp [afterStart?, Ne.symm hquote]
      rw [hstart, quotedPath?_eq_none hquote]
      rfl

/-- The match of the pattern of a form at the start of a text is the stretch with a link of the form there. -/
theorem first?_pattern (form : LinkForm) (t : Text) :
    form.pattern.first? t = (match? form t).map fun m => (m.lead ++ m.link ++ m.trail, m.rest) := by
  cases form with
  | url => exact first?_url t
  | quotedPath => exact first?_quotedPath t

end Link

end DoomLex
