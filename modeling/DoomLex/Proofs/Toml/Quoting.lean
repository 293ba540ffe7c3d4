/-
Keys and strings are read as they were written. Between double quotes every character is written so that the
reader gives it back and goes on in plain text; a quote is the one character that can end the string, and of
three in a row at most two are the text's own, whether they stand before the closing quotes or elsewhere. Between
single quotes nothing is escaped, and a form is chosen only for texts that it can hold.
-/
import DoomLex.Toml.Quoting
import Mathlib.Tactic.SplitIfs

namespace DoomLex.Toml

variable {multi : Bool} {c d : Char} {t u rest : Text}

/-! ## Classes of characters -/

theorem ne_of_class (p : Char → Bool) (hc : p c = true) (hd : p d = false) : c ≠ d := by
  rintro rfl
  rw [hc] at hd
  cases hd

theorem cons_ne_of_class (p : Char → Bool) (hc : p c = true) (d : Char) (u : Text) (hd : p d = false) :
    c :: t ≠ d :: u :=
  fun h => ne_of_class p hc hd (List.cons.inj h).1

theorem span_append {p : Char → Bool} (h : ∀ c ∈ t, p c = true) (hrest : ∀ c ∈ rest.head?, p c = false) :
    (t ++ rest).takeWhile p = t ∧ (t ++ rest).dropWhile p = rest := by
  rw [List.takeWhile_append_of_pos h, List.dropWhile_append_of_pos h]
  cases rest with
  | nil => simp
  | cons c rest =>
    have hc : p c = false := hrest c rfl
    simp [hc]

/-! ## Characters between double quotes -/

theorem ne_of_not_isCode (h : isCode c = false) : c ≠ '\r' := by
  rintro rfl
  cases h

theorem isBreakStart_of_not_isCode (h : isCode c = false) (t : Text) : isBreakStart c t = false := by
  simp [isBreakStart, ne_of_not_isCode h]

theorem readQuoted_char (hquote : c ≠ '"') (hbackslash : c ≠ '\\') (hcode : isCode c = false)
    (hbreak : c = '\n' → multi = true) :
    readQuoted multi .plain (c :: t) = push c (readQuoted multi .plain t) := by
  rw [readQuoted]
  cases multi with
  | false => simp [hquote, hbackslash, hcode, show c ≠ '\n' from fun h => nomatch hbreak h]
  | true => simp [hquote, hbackslash, hcode, isBreakStart_of_not_isCode hcode]

theorem readQuoted_backslash : readQuoted multi .plain ('\\' :: t) = readQuoted multi .escape t := by
  rw [readQuoted]
  simp

theorem readQuoted_short (h : shortEscape? c = some d) :
    readQuoted multi .plain ('\\' :: c :: t) = push d (readQuoted multi .plain t) := by
  rw [readQuoted_backslash, readQuoted]
  simp [h]

theorem readQuoted_u : readQuoted multi .plain ('\\' :: 'u' :: t) = readQuoted multi (.code 4 0) t := by
  rw [readQuoted_backslash, readQuoted]
  simp [show shortEscape? 'u' = none from rfl]

/-- Digits of a code add up to the number that they write. -/
theorem readQuoted_code {digits : Text} (hne : digits ≠ []) (hhex : ∀ d ∈ digits, Text.isHexDigit d = true)
    (value : Nat) (h : charOfCode? (digits.foldl (fun n c => n * 16 + Text.digitValue c) value) = some c) :
    readQuoted multi (.code digits.length value) (digits ++ t) = push c (readQuoted multi .plain t) := by
  induction digits generalizing value with
  | nil => exact absurd rfl hne
  | cons d digits ih =>
    obtain ⟨hd, hdigits⟩ := List.forall_mem_cons.1 hhex
    rw [List.foldl_cons] at h
    rw [List.cons_append, readQuoted]
    cases digits with
    | nil =>
      rw [List.foldl_nil] at h
      simp [hd, h]
    | cons e digits =>
      rw [← ih (List.cons_ne_nil e digits) hdigits _ h]
      simp [hd]

theorem toNat_lt_of_isCode (h : isCode c = true) : c.toNat < 128 := by
  simp only [isCode, Bool.or_eq_true, Bool.and_eq_true, decide_eq_true_eq, beq_iff_eq] at h
  rcases h with ⟨⟨hlt, -⟩, -⟩ | rfl
  · have hblank : ' '.val.toNat < 128 := by decide
    rw [Char.lt_def, UInt32.lt_iff_toNat_lt] at hlt
    exact Nat.lt_trans hlt hblank
  · decide

theorem code4_spec {n : Nat} (h : n < 128) : (code4 n).length = 4 ∧ (∀ d ∈ code4 n, Text.isHexDigit d = true) ∧
    (code4 n).foldl (fun n c => n * 16 + Text.digitValue c) 0 = n := by
  have hall : (List.range 128).all fun n => (code4 n).length == 4 && (code4 n).all Text.isHexDigit &&
      (code4 n).foldl (fun n c => n * 16 + Text.digitValue c) 0 == n := by
    decide +kernel
  simpa [and_assoc] using List.all_eq_true.1 hall n (List.mem_range.2 h)

theorem charOfCode?_toNat (c : Char) : charOfCode? c.toNat = some c := by
  have hvalid : c.toNat.isValidChar := c.valid
  rw [charOfCode?, if_pos hvalid, Char.ofNat_toNat]

/-- A character is read as it is written. -/
theorem readQuoted_escape (h : c ≠ '"') :
    readQuoted multi .plain (escape multi c ++ t) = push c (readQuoted multi .plain t) := by
  unfold escape
  split_ifs with hb ht hn hmulti hf hr hbackslash hcode
  · subst hb
    exact readQuoted_short rfl
  · subst ht
    exact readQuoted_short rfl
  · subst hn
    exact readQuoted_char (by decide) (by decide) rfl fun _ => hmulti
  · subst hn
    exact readQuoted_short rfl
  · subst hf
    exact readQuoted_short rfl
  · subst hr
    exact readQuoted_short rfl
  · subst hbackslash
    exact readQuoted_short rfl
  · obtain ⟨hlength, hhex, hvalue⟩ := code4_spec (toNat_lt_of_isCode hcode)
    have hne : code4 c.toNat ≠ [] := List.ne_nil_of_length_pos (by omega)
    have hread : readQuoted multi (.code (code4 c.toNat).length 0) (code4 c.toNat ++ t) = _ :=
      readQuoted_code hne hhex 0 (by rw [hvalue, charOfCode?_toNat])
    rw [hlength] at hread
    exact readQuoted_u.trans hread
  · exact readQuoted_char h hbackslash (by simpa using hcode) fun hbreak => absurd hbreak hn

/-- What a character is written as starts with neither a quote nor a break that the text does not have. -/
theorem exists_escape_eq (multi : Bool) (h : c ≠ '"') :
    ∃ d u, escape multi c = d :: u ∧ d ≠ '"' ∧ d ≠ '\r' ∧ (d = '\n' → c = '\n') := by
  unfold escape
  split_ifs with hb ht hn hmulti hf hr hbackslash hcode
  all_goals first
    | exact ⟨'\\', _, rfl, by decide, by decide, fun hbreak => absurd hbreak (by decide)⟩
    | skip
  · exact ⟨'\n', [], rfl, by decide, by decide, fun _ => hn⟩
  · exact ⟨c, [], rfl, h, hr, id⟩

/-! ## Strings between double quotes -/

theorem readQuoted_inQuotes (t rest : Text) :
    readQuoted false .plain (escapeAll false 0 0 t ++ '"' :: rest) = some (t, rest) := by
  induction t with
  | nil => rfl
  | cons c t ih =>
    rw [escapeAll]
    split
    · rename_i hquote
      subst hquote
      rw [if_neg (Nat.lt_irrefl 0)]
      show readQuoted false .plain ('\\' :: '"' :: (escapeAll false 0 0 t ++ '"' :: rest)) = _
      rw [readQuoted_short rfl, ih]
      rfl
    · rename_i hquote
      rw [List.append_assoc, readQuoted_escape hquote, ih]
      rfl

theorem takeWhile_of_head? (h : t.head? ≠ some c) (n : Nat) : (t.take n).takeWhile (· == c) = [] := by
  cases t with
  | nil => rw [List.take_nil, List.takeWhile_nil]
  | cons d t =>
    have hd : d ≠ c := fun heq => h (congrArg some heq)
    cases n with
    | zero => rfl
    | succ n => simp [hd]

/-- Up to two quotes may stand before the three that close a string. -/
theorem readQuoted_closing (hrest : rest.head? ≠ some '"') {k : Nat} (hk : k ≤ 2) :
    readQuoted true .plain (List.replicate k '"' ++ '"' :: '"' :: '"' :: rest) =
      some (List.replicate k '"', rest) := by
  have hmore := takeWhile_of_head? hrest
  match k, hk with
  | 0, _ => simp [readQuoted, hmore]
  | 1, _ => simp [readQuoted, hmore]
  | 2, _ => simp [readQuoted, List.replicate]

/-- A quote that two more do not follow is the text's own. -/
theorem readQuoted_quote (h : t.take 2 ≠ ['"', '"']) :
    readQuoted true .plain ('"' :: t) = push '"' (readQuoted true .plain t) := by
  rw [readQuoted]
  simp [h, show isBreakStart '"' t = false from rfl, show isCode '"' = false from rfl]

/-- What is written for a text starts with a quote only if the text does and one more may stand without escape. -/
theorem head?_escapeAll {free run : Nat} (h : free ≤ run ∨ c ≠ '"') :
    (escapeAll multi free run (c :: t) ++ u).head? ≠ some '"' := by
  rw [escapeAll]
  split
  · rename_i hquote
    rw [if_neg (Nat.not_lt.2 (h.resolve_right (not_not_intro hquote)))]
    simp
  · rename_i hquote
    obtain ⟨d, body, heq, hd, -⟩ := exists_escape_eq multi hquote
    simp [heq, hd]

theorem head?_of_take_two (h : t.take 2 = [c, c]) : t.head? = some c ∧ t.tail.head? = some c := by
  match t, h with
  | _ :: _ :: _, h => simpa using h

/-- After a quote without escape two more stand only where the text ends. -/
theorem eq_of_take_two {run : Nat}
    (h : (escapeAll true 2 (run + 1) t ++ '"' :: '"' :: '"' :: rest).take 2 = ['"', '"']) :
    t = [] ∨ t = ['"'] ∧ run = 0 := by
  obtain ⟨hfirst, hsecond⟩ := head?_of_take_two h
  cases t with
  | nil => exact .inl rfl
  | cons c t =>
    by_cases hnext : 2 ≤ run + 1 ∨ c ≠ '"'
    · exact absurd hfirst (head?_escapeAll hnext)
    · obtain ⟨rfl, rfl⟩ : run = 0 ∧ c = '"' := by
        constructor
        · omega
        · exact Decidable.by_contra fun hc => hnext (.inr hc)
      cases t with
      | nil => exact .inr ⟨rfl, rfl⟩
      | cons d t => exact absurd hsecond (head?_escapeAll (.inl (Nat.le_refl 2)))

theorem readQuoted_inTripleQuotes (hrest : rest.head? ≠ some '"') (run : Nat) (t : Text) :
    readQuoted true .plain (escapeAll true 2 run t ++ '"' :: '"' :: '"' :: rest) = some (t, rest) := by
  induction t generalizing run with
  | nil => exact readQuoted_closing hrest (Nat.zero_le 2)
  | cons c t ih =>
    by_cases hquote : c = '"'
    · subst hquote
      rw [escapeAll, if_pos rfl]
      split
      · rename_i hrun
        by_cases htake : (escapeAll true 2 (run + 1) t ++ '"' :: '"' :: '"' :: rest).take 2 = ['"', '"']
        · rcases eq_of_take_two htake with rfl | ⟨rfl, rfl⟩
          · exact readQuoted_closing (k := 1) hrest (by decide)
          · exact readQuoted_closing (k := 2) hrest (by decide)
        · rw [List.cons_append, readQuoted_quote htake, ih]
          rfl
      · show readQuoted true .plain ('\\' :: '"' :: (escapeAll true 2 0 t ++ '"' :: '"' :: '"' :: rest)) = _
        rw [readQuoted_short rfl, ih]
        rfl
    · rw [escapeAll, if_neg hquote, List.append_assoc, readQuoted_escape hquote, ih]
      rfl

/-! ## Strings between single quotes -/

theorem readLiteral_char (hquote : c ≠ '\'') (hcode : isCode c = false) (hbreak : c = '\n' → multi = true) :
    readLiteral multi (c :: t) = push c (readLiteral multi t) := by
  rw [readLiteral]
  cases multi with
  | false => simp [hquote, hcode, show c ≠ '\n' from fun h => nomatch hbreak h]
  | true => simp [hquote, hcode, isBreakStart_of_not_isCode hcode]

theorem readLiteral_inSingleQuotes (hquote : '\'' ∉ t) (hcode : ∀ c ∈ t, isCode c = false ∧ c ≠ '\n')
    (rest : Text) : readLiteral false (t ++ '\'' :: rest) = some (t, rest) := by
  induction t with
  | nil => rfl
  | cons c t ih =>
    rw [List.mem_cons, not_or] at hquote
    obtain ⟨hc, ht⟩ := List.forall_mem_cons.1 hcode
    rw [List.cons_append, readLiteral_char (Ne.symm hquote.1) hc.1 fun h => absurd h hc.2, ih hquote.2 ht]
    rfl

/-- Up to two quotes may stand before the three that close a string. -/
theorem readLiteral_closing (hrest : rest.head? ≠ some '\'') {k : Nat} (hk : k ≤ 2) :
    readLiteral true (List.replicate k '\'' ++ '\'' :: '\'' :: '\'' :: rest) =
      some (List.replicate k '\'', rest) := by
  have hmore := takeWhile_of_head? hrest
  match k, hk with
  | 0, _ => simp [readLiteral, hmore]
  | 1, _ => simp [readLiteral, hmore]
  | 2, _ => simp [readLiteral, List.replicate]

theorem readLiteral_quote (h : t.take 2 ≠ ['\'', '\'']) :
    readLiteral true ('\'' :: t) = push '\'' (readLiteral true t) := by
  rw [readLiteral]
  simp [h, show isBreakStart '\'' t = false from rfl, show isCode '\'' = false from rfl]

theorem le_longestRun (q : Char) (n : Nat) (t : Text) : n ≤ longestRun q n t := by
  induction t generalizing n with
  | nil => exact Nat.le_refl n
  | cons c t ih =>
    rw [longestRun]
    split
    · exact Nat.le_trans (Nat.le_succ n) (ih (n + 1))
    · exact Nat.le_max_left ..

theorem longestRun_le {q : Char} {m n : Nat} (h : m ≤ n) (t : Text) : longestRun q m t ≤ longestRun q n t := by
  induction t generalizing m n with
  | nil => exact h
  | cons c t ih =>
    rw [longestRun, longestRun]
    split
    · exact ih (Nat.succ_le_succ h)
    · omega

theorem longestRun_tail_le (q c : Char) (t : Text) : longestRun q 0 t ≤ longestRun q 0 (c :: t) := by
  rw [longestRun]
  split
  · exact longestRun_le (Nat.zero_le 1) t
  · exact Nat.le_max_right ..

/-- In a text with at most two quotes in a row, two follow a quote only where the text ends. -/
theorem eq_of_longestRun {q : Char} (hrun : longestRun q 0 (q :: t) ≤ 2)
    (h : (t ++ q :: q :: q :: rest).take 2 = [q, q]) : t = [] ∨ t = [q] := by
  obtain ⟨hfirst, hsecond⟩ := head?_of_take_two h
  match t with
  | [] => exact .inl rfl
  | [c] =>
    obtain rfl := Option.some.inj hfirst
    exact .inr rfl
  | c :: d :: t =>
    obtain rfl := Option.some.inj hfirst
    obtain rfl := Option.some.inj hsecond
    have hthree : 3 ≤ longestRun d (0 + 1 + 1 + 1) t := le_longestRun d 3 t
    simp only [longestRun, if_true] at hrun
    omega

theorem readLiteral_inTripleQuotes (hrest : rest.head? ≠ some '\'') (hrun : longestRun '\'' 0 t ≤ 2)
    (hcode : ∀ c ∈ t, isCode c = false) :
    readLiteral true (t ++ '\'' :: '\'' :: '\'' :: rest) = some (t, rest) := by
  induction t with
  | nil => exact readLiteral_closing hrest (Nat.zero_le 2)
  | cons c t ih =>
    obtain ⟨hc, ht⟩ := List.forall_mem_cons.1 hcode
    have hread := ih (Nat.le_trans (longestRun_tail_le '\'' c t) hrun) ht
    by_cases hquote : c = '\''
    · subst hquote
      by_cases htake : (t ++ '\'' :: '\'' :: '\'' :: rest).take 2 = ['\'', '\'']
      · rcases eq_of_longestRun hrun htake with rfl | rfl
        · exact readLiteral_closing (k := 1) hrest (by decide)
        · exact readLiteral_closing (k := 2) hrest (by decide)
      · rw [List.cons_append, readLiteral_quote htake, hread]
        rfl
    · rw [List.cons_append, readLiteral_char hquote hc fun _ => rfl, hread]
      rfl

/-! ## Strings -/

theorem dropBreak_of_head? (hbreak : t.head? ≠ some '\n') (hreturn : t.head? ≠ some '\r') :
    dropBreak t = t := by
  unfold dropBreak
  split
  · exact absurd rfl hbreak
  · exact absurd rfl hreturn
  · rfl

/-- What is written for a text starts with a break only if the text does. -/
theorem exists_escapeAll_eq (multi : Bool) (free run : Nat) (c : Char) (t : Text) :
    ∃ d u, escapeAll multi free run (c :: t) = d :: u ∧ d ≠ '\r' ∧ (d = '\n' → c = '\n') := by
  rw [escapeAll]
  split_ifs with hquote
  · exact ⟨'"', _, rfl, by decide, fun h => absurd h (by decide)⟩
  · exact ⟨'\\', _, rfl, by decide, fun h => absurd h (by decide)⟩
  · obtain ⟨d, u, heq, -, hreturn, hbreak⟩ := exists_escape_eq multi hquote
    exact ⟨d, u ++ escapeAll multi free 0 t, by rw [heq]; rfl, hreturn, hbreak⟩

/-- The break written in front of a text is all that the reader drops. -/
theorem dropBreak_leadBreak (h : '\n' ∉ t → u.head? ≠ some '\n' ∧ u.head? ≠ some '\r') :
    dropBreak (leadBreak t ++ u) = u := by
  unfold leadBreak
  split
  · rfl
  · rename_i hmem
    obtain ⟨hbreak, hreturn⟩ := h (by simpa using hmem)
    exact dropBreak_of_head? hbreak hreturn

theorem readString_one (h : t.take 2 ≠ ['"', '"']) : readString ('"' :: t) = readQuoted false .plain t := by
  simp [readString, h]

theorem readString_oneSingle (h : t.take 2 ≠ ['\'', '\'']) : readString ('\'' :: t) = readLiteral false t := by
  simp [readString, h]

theorem readString_three : readString ('"' :: '"' :: '"' :: t) = readQuoted true .plain (dropBreak t) := rfl

theorem readString_threeSingle :
    readString ('\'' :: '\'' :: '\'' :: t) = readLiteral true (dropBreak t) := rfl

theorem readString_inQuotes (hrest : rest.head? ≠ some '"') (t : Text) :
    readString (inQuotes t ++ rest) = some (t, rest) := by
  have hquotes : inQuotes t ++ rest = '"' :: (escapeAll false 0 0 t ++ '"' :: rest) := by simp [inQuotes]
  rw [hquotes, readString_one, readQuoted_inQuotes]
  intro htake
  obtain ⟨hfirst, hsecond⟩ := head?_of_take_two htake
  cases t with
  | nil => exact hrest hsecond
  | cons c t => exact head?_escapeAll (.inl (Nat.le_refl 0)) hfirst

theorem readString_inSingleQuotes (hrest : rest.head? ≠ some '\'') (hquote : '\'' ∉ t)
    (hcode : ∀ c ∈ t, isCode c = false ∧ c ≠ '\n') :
    readString (inSingleQuotes t ++ rest) = some (t, rest) := by
  have hquotes : inSingleQuotes t ++ rest = '\'' :: (t ++ '\'' :: rest) := by simp [inSingleQuotes]
  rw [hquotes, readString_oneSingle, readLiteral_inSingleQuotes hquote hcode]
  intro htake
  obtain ⟨hfirst, hsecond⟩ := head?_of_take_two htake
  cases t with
  | nil => exact hrest hsecond
  | cons c t => exact hquote (Option.some.inj hfirst ▸ List.mem_cons_self)

theorem readString_inTripleQuotes (hrest : rest.head? ≠ some '"') (t : Text) :
    readString (inTripleQuotes t ++ rest) = some (t, rest) := by
  have hquotes : inTripleQuotes t ++ rest =
      '"' :: '"' :: '"' :: (leadBreak t ++ (escapeAll true 2 0 t ++ '"' :: '"' :: '"' :: rest)) := by
    simp [inTripleQuotes]
  have hlead : dropBreak (leadBreak t ++ (escapeAll true 2 0 t ++ '"' :: '"' :: '"' :: rest)) =
      escapeAll true 2 0 t ++ '"' :: '"' :: '"' :: rest := by
    refine dropBreak_leadBreak fun hbreak => ?_
    cases t with
    | nil => exact ⟨by simp [escapeAll], by simp [escapeAll]⟩
    | cons c t =>
      rw [List.mem_cons, not_or] at hbreak
      obtain ⟨d, body, heq, hreturn, hd⟩ := exists_escapeAll_eq true 2 0 c t
      rw [heq]
      exact ⟨fun h => hbreak.1 (hd (Option.some.inj h)).symm, fun h => hreturn (Option.some.inj h)⟩
  rw [hquotes, readString_three, hlead, readQuoted_inTripleQuotes hrest]

theorem readString_inTripleSingleQuotes (hrest : rest.head? ≠ some '\'') (hrun : longestRun '\'' 0 t ≤ 2)
    (hcode : ∀ c ∈ t, isCode c = false) : readString (inTripleSingleQuotes t ++ rest) = some (t, rest) := by
  have hquotes : inTripleSingleQuotes t ++ rest =
      '\'' :: '\'' :: '\'' :: (leadBreak t ++ (t ++ '\'' :: '\'' :: '\'' :: rest)) := by
    simp [inTripleSingleQuotes]
  have hlead : dropBreak (leadBreak t ++ (t ++ '\'' :: '\'' :: '\'' :: rest)) =
      t ++ '\'' :: '\'' :: '\'' :: rest := by
    refine dropBreak_leadBreak fun hbreak => ?_
    cases t with
    | nil => exact ⟨by simp, by simp⟩
    | cons c t =>
      rw [List.mem_cons, not_or] at hbreak
      have hreturn := ne_of_not_isCode (hcode c List.mem_cons_self)
      exact ⟨by simpa using Ne.symm hbreak.1, by simpa using hreturn⟩
  rw [hquotes, readString_threeSingle, hlead, readLiteral_inTripleQuotes hrest hrun hcode]

/-- A string is read as it was written, in whichever form. -/
theorem readString_writeString (hdouble : rest.head? ≠ some '"') (hsingle : rest.head? ≠ some '\'') (t : Text) :
    readString (writeString t ++ rest) = some (t, rest) := by
  unfold writeString
  split_ifs with hcode hbreak hplain hlone hdoubles hsingles hbreak'
  · exact readString_inTripleQuotes hdouble t
  · exact readString_inQuotes hdouble t
  · exact readString_inQuotes hdouble t
  · have hnone : ∀ c ∈ t, isCode c = false := by simpa using hcode
    obtain ⟨hquote, hbreak⟩ : '\'' ∉ t ∧ '\n' ∉ t := by simpa using hlone
    exact readString_inSingleQuotes hsingle hquote fun c hc => ⟨hnone c hc, fun h => hbreak (h ▸ hc)⟩
  · exact readString_inTripleQuotes hdouble t
  · exact readString_inTripleSingleQuotes hsingle hsingles (by simpa using hcode)
  · exact readString_inTripleQuotes hdouble t
  · exact readString_inQuotes hdouble t

/-! ## Keys -/

theorem readKey_inQuotes (t rest : Text) : readKey (inQuotes t ++ rest) = some (t, rest) := by
  have hquotes : inQuotes t ++ rest = '"' :: (escapeAll false 0 0 t ++ '"' :: rest) := by simp [inQuotes]
  rw [hquotes]
  exact readQuoted_inQuotes t rest

theorem readKey_inSingleQuotes (hquote : '\'' ∉ t) (hcode : ∀ c ∈ t, isCode c = false ∧ c ≠ '\n') (rest : Text) :
    readKey (inSingleQuotes t ++ rest) = some (t, rest) := by
  have hquotes : inSingleQuotes t ++ rest = '\'' :: (t ++ '\'' :: rest) := by simp [inSingleQuotes]
  rw [hquotes]
  exact readLiteral_inSingleQuotes hquote hcode rest

theorem readKey_bare (hne : t ≠ []) (hbare : ∀ c ∈ t, isBare c = true)
    (hrest : ∀ c ∈ rest.head?, isBare c = false) : readKey (t ++ rest) = some (t, rest) := by
  obtain ⟨htake, hdrop⟩ := span_append hbare hrest
  obtain ⟨c, u, rfl⟩ := List.exists_cons_of_ne_nil hne
  have hc := hbare c List.mem_cons_self
  unfold readKey
  split
  · exact absurd (by assumption) (cons_ne_of_class isBare hc '"' _ rfl)
  · exact absurd (by assumption) (cons_ne_of_class isBare hc '\'' _ rfl)
  · simp only [htake, hdrop, if_neg hne]

/-- A key is read as it was written. -/
theorem readKey_writeKey (hrest : ∀ c ∈ rest.head?, isBare c = false) (t : Text) :
    readKey (writeKey t ++ rest) = some (t, rest) := by
  unfold writeKey
  split_ifs with hbare hplain hlone
  · exact readKey_bare hbare.1 (by simpa using hbare.2) hrest
  · exact readKey_inQuotes t rest
  · obtain ⟨hcode, hquote⟩ : (∀ c ∈ t, isCode c = false ∧ c ≠ '\n') ∧ '\'' ∉ t := by simpa using hlone
    exact readKey_inSingleQuotes hquote hcode rest
  · exact readKey_inQuotes t rest

end DoomLex.Toml
