/-
How far comments and backquoted texts reach: up to the first closer after their opening, or over the end
of the line if there is none. In a comment the scan remembers whether it has just passed a star; it so
finds the first star with a slash after it, and no slash before that closes anything. The star that
makes a comment one of documentation may be the one that closes it.
-/
import DoomLex.Proofs.Lexing.Stretches
import Mathlib.Data.List.Infix
import Mathlib.Tactic.SplitIfs

namespace DoomLex

/-! ## The first closer in a text -/

/-- A text ends in a closer, and the closer stands nowhere before. -/
def Text.EndsAtFirst (t closer : Text) : Prop := closer <:+ t ∧ ¬ closer <:+: t.dropLast

theorem Text.exists_endsAtFirst {closer t : Text} (h : closer <:+: t) (hne : closer ≠ []) :
    ∃ u v, t = u ++ v ∧ u.EndsAtFirst closer := by
  induction t using List.reverseRecOn with
  | nil => exact absurd (List.infix_nil.1 h) hne
  | append_singleton t c ih =>
    by_cases ht : closer <:+: t
    · obtain ⟨u, v, rfl, hu⟩ := ih ht
      exact ⟨u, v ++ [c], List.append_assoc .., hu⟩
    · have hsuffix : closer <:+ t ++ [c] := (List.infix_concat_iff.1 h).resolve_right ht
      refine ⟨t ++ [c], [], (List.append_nil _).symm, hsuffix, ?_⟩
      rw [List.dropLast_concat]
      exact ht

theorem Text.EndsAtFirst.exists_concat {closer u : Text} (h : u.EndsAtFirst closer) (hne : closer ≠ []) :
    ∃ t c, u = t ++ [c] ∧ closer <:+: t ++ [c] ∧ ¬ closer <:+: t := by
  obtain ⟨hsuffix, hfirst⟩ := h
  obtain ⟨t, c, rfl⟩ : ∃ t c, u = t ++ [c] := by
    have hu : u ≠ [] := by
      rintro rfl
      exact hne (List.suffix_nil.1 hsuffix)
    exact ⟨u.dropLast, u.getLast hu, (List.dropLast_append_getLast hu).symm⟩
  rw [List.dropLast_concat] at hfirst
  exact ⟨t, c, rfl, hsuffix.isInfix, hfirst⟩

/-! ## Within a comment -/

namespace Braces

/-- Between characters of a comment, of documentation or not. -/
def Block.within : Bool → Block
  | false => .plain
  | true => .doc

/-- After a star in a comment, of documentation or not. -/
def Block.afterStar : Bool → Block
  | false => .plainStar
  | true => .docStar

/-- The kind of a comment, of documentation or not. -/
def commentKind (doc : Bool) : Kind := if doc then .docComment else .blockComment

/-- The state of a line that leaves a comment open, of documentation or not. -/
def commentState (doc : Bool) : LineState := if doc then .docComment else .blockComment

/-- The two characters that close a comment. -/
def commentCloser : Text := ['*', '/']

/-- The comment with some more characters; none if one of them closes it. -/
def Block.read (b : Block) : Text → Option Block
  | [] => some b
  | c :: t =>
    match b.step c with
    | some b' => b'.read t
    | none => none

theorem Block.read_concat (b : Block) (t : Text) (c : Char) :
    b.read (t ++ [c]) = (b.read t).bind (·.step c) := by
  induction t generalizing b with
  | nil =>
    simp only [List.nil_append, read, Option.bind_some]
    cases b.step c <;> rfl
  | cons c' t ih =>
    simp only [List.cons_append, read]
    cases b.step c' with
    | none => rfl
    | some b' => exact ih b'

/-- A place within a comment, of documentation or not, past its opening. -/
def Block.Inside (doc : Bool) (b : Block) : Prop := b = within doc ∨ b = afterStar doc

section Inside

variable {doc : Bool}

theorem Block.step_within (c : Char) :
    (within doc).step c = some (if c = '*' then afterStar doc else within doc) := by
  cases doc <;> (simp only [within, afterStar, step]; split_ifs <;> rfl)

theorem Block.step_afterStar (c : Char) :
    (afterStar doc).step c =
      if c = '/' then none else some (if c = '*' then afterStar doc else within doc) := by
  cases doc <;> (simp only [within, afterStar, step]; split_ifs <;> rfl)

theorem Block.Inside.step {b b' : Block} {c : Char} (hb : b.Inside doc) (h : b.step c = some b') :
    b'.Inside doc := by
  have hnext : b' = if c = '*' then afterStar doc else within doc := by
    rcases hb with rfl | rfl
    · rw [step_within] at h
      exact (Option.some.inj h).symm
    · rw [step_afterStar] at h
      split_ifs at h <;> simp_all
  rw [hnext]
  split_ifs
  · exact .inr rfl
  · exact .inl rfl

theorem Block.Inside.read {b b' : Block} {t : Text} (hb : b.Inside doc) (h : b.read t = some b') :
    b'.Inside doc := by
  induction t generalizing b with
  | nil => exact Option.some.inj h ▸ hb
  | cons c t ih =>
    rw [Block.read] at h
    split at h
    · rename_i b'' hstep
      exact ih (hb.step hstep) h
    · cases h

theorem Block.Inside.kind_eq {b : Block} (h : b.Inside doc) : b.kind = commentKind doc := by
  rcases h with rfl | rfl <;> cases doc <;> rfl

theorem Block.Inside.lineState_eq {b : Block} (h : b.Inside doc) : b.lineState = commentState doc := by
  rcases h with rfl | rfl <;> cases doc <;> rfl

theorem closer_infix_cons_of_ne {c : Char} (hc : c ≠ '*') (t : Text) :
    commentCloser <:+: c :: t ↔ commentCloser <:+: t := by
  simp [List.infix_cons_iff, commentCloser, List.prefix_cons_iff, Ne.symm hc]

theorem closer_infix_star_cons (c : Char) (t : Text) :
    commentCloser <:+: '*' :: c :: t ↔ c = '/' ∨ commentCloser <:+: c :: t := by
  have hprefix : commentCloser <+: '*' :: c :: t ↔ c = '/' := by
    simpa [commentCloser, List.prefix_cons_iff] using eq_comm
  rw [List.infix_cons_iff, hprefix]

/-- A comment is closed by what follows exactly if a closer stands in it; after a star, the star counts
as the first character of what follows. -/
theorem Block.read_eq_none_iff (doc : Bool) (t : Text) :
    ((within doc).read t = none ↔ commentCloser <:+: t) ∧
      ((afterStar doc).read t = none ↔ commentCloser <:+: '*' :: t) := by
  induction t with
  | nil => simp [read, commentCloser, List.infix_cons_iff, List.prefix_cons_iff]
  | cons c t ih =>
    obtain ⟨hwithin, hstar⟩ := ih
    rw [read, read, step_within, step_afterStar, closer_infix_star_cons]
    by_cases hc : c = '*'
    · subst hc
      simpa using hstar
    · rw [closer_infix_cons_of_ne hc]
      by_cases hslash : c = '/'
      · simpa [hslash] using hwithin
      · simpa [hslash, hc] using hwithin

end Inside

/-! ## The scan of comments and backquoted texts -/

section Scan

variable (d : Dialect)

theorem takes_block {b b' : Block} {t : Text} (ht : '\n' ∉ t) (h : b.read t = some b') :
    (machine d).Takes (.block b) t (.block b') := by
  induction t generalizing b with
  | nil => exact Option.some.inj h ▸ .nil
  | cons c t ih =>
    obtain ⟨hc, ht⟩ := List.ne_and_not_mem_of_not_mem_cons ht
    rw [Block.read] at h
    split at h
    · rename_i b'' hstep
      have htake : answer d (.block b) c = .take (.block b'') := by simp only [answer, hstep]
      exact .cons hc.symm htake (ih ht h)
    · cases h

/-- A comment that is closed runs through its first closer, and the scan goes on from the neutral
state. -/
theorem scanFrom_block_closed (doc : Bool) (pending : Text) {u : Text} (hu : '\n' ∉ u)
    (h : u.EndsAtFirst commentCloser) (v : Text) :
    (machine d).scanFrom (.block (.within doc)) pending (u ++ v) =
      (⟨commentKind doc, pending.reverse ++ u⟩ :: ((machine d).scan .neutral v).1,
        ((machine d).scan .neutral v).2) := by
  obtain ⟨t, c, rfl, hclosed, hopen⟩ := h.exists_concat (by simp [commentCloser])
  obtain ⟨ht, hc⟩ : '\n' ∉ t ∧ '\n' ≠ c := by simpa using hu
  rw [← (Block.read_eq_none_iff doc _).1] at hclosed hopen
  -- the comment is still open before the last character, which so must be the one that closes it
  obtain ⟨b, hb⟩ := Option.ne_none_iff_exists'.1 hopen
  rw [Block.read_concat, hb, Option.bind_some] at hclosed
  have hinside : b.Inside doc := Block.Inside.read (.inl rfl) hb
  have hclose : answer d (.block b) c = .close (commentKind doc) .neutral := by
    simp only [answer, hclosed, hinside.kind_eq]
  rw [List.append_assoc, List.singleton_append, ← List.append_assoc,
    Machine.scanFrom_of_takes_close (takes_block d ht hb) hc.symm hclose]
  rfl

/-- A comment that is not closed reaches over the end of its line. -/
theorem scanFrom_block_open (doc : Bool) (pending : Text) {t : Text} (ht : '\n' ∉ t)
    (h : ¬ commentCloser <:+: t) :
    (machine d).scanFrom (.block (.within doc)) pending t =
      (Run.ofPending (fun _ => commentKind doc) (t.reverse ++ pending), commentState doc) := by
  rw [← (Block.read_eq_none_iff doc _).1] at h
  obtain ⟨b, hb⟩ := Option.ne_none_iff_exists'.1 h
  have hinside : b.Inside doc := Block.Inside.read (.inl rfl) hb
  rw [Machine.scanFrom_of_takes_all (takes_block d ht hb)]
  show (Run.ofPending (fun _ => b.kind) _, b.lineState) = _
  rw [hinside.kind_eq, hinside.lineState_eq]

/-- The character after the opening of a comment decides which comment it is, and moves within that. -/
theorem Block.step_opened (c : Char) :
    opened.step c = some (if c = '*' then afterStar (c == '*') else within (c == '*')) := by
  by_cases hc : c = '*'
  · subst hc
    rfl
  · have hfalse : (c == '*') = false := beq_false_of_ne hc
    simp [step, hc, hfalse, within]

theorem scanFrom_block_opened (pending : Text) {t : Text} (ht : '\n' ∉ t) :
    (machine d).scanFrom (.block .opened) pending t =
      (machine d).scanFrom (.block (.within (t.head? == some '*'))) pending t := by
  cases t with
  | nil => rfl
  | cons c t =>
    have hc : c ≠ '\n' := (List.ne_of_not_mem_cons ht).symm
    have hopened : (machine d).answer (.block .opened) c = .take (.block
        (if c = '*' then .afterStar (c == '*') else .within (c == '*'))) := by
      show answer d (.block .opened) c = _
      simp only [answer, Block.step_opened]
    have hwithin : (machine d).answer (.block (.within (c == '*'))) c = .take (.block
        (if c = '*' then .afterStar (c == '*') else .within (c == '*'))) := by
      show answer d (.block _) c = _
      simp only [answer, Block.step_within]
    have hhead : ((c :: t).head? == some '*') = (c == '*') := rfl
    rw [hhead, Machine.scanFrom_cons _ hc, Machine.scanFrom_cons _ hc, Machine.react_of_take hopened,
      Machine.react_of_take hwithin]

theorem takes_backquote {t : Text} (ht : '\n' ∉ t) (h : '`' ∉ t) :
    (machine d).Takes .backquote t .backquote := by
  induction t with
  | nil => exact .nil
  | cons c t ih =>
    obtain ⟨hc, ht⟩ := List.ne_and_not_mem_of_not_mem_cons ht
    obtain ⟨hquote, h⟩ := List.ne_and_not_mem_of_not_mem_cons h
    exact .cons hc.symm (if_neg hquote.symm) (ih ht h)

theorem takes_lineComment {t : Text} (ht : '\n' ∉ t) : (machine d).Takes .lineComment t .lineComment := by
  induction t with
  | nil => exact .nil
  | cons c t ih =>
    obtain ⟨hc, ht⟩ := List.ne_and_not_mem_of_not_mem_cons ht
    exact .cons hc.symm rfl (ih ht)

end Scan

end Braces

/-! ## The extent of comments and backquoted texts -/

namespace Language

/-- After a lead, a text is of one kind up to its first closer, and what follows that is lexed from the
neutral state; if it has no closer, all of it is of that kind and leaves the given state. -/
def Encloses (l : Language) (state : LineState) (offset : Nat) (lead : Text) (kind : Kind) (closer : Text)
    (next : LineState) (t : Text) : Prop :=
  (closer <:+: t →
    ∃ u v, t = u ++ v ∧ u.EndsAtFirst closer ∧ l.LexesAs state offset kind (lead ++ u) v) ∧
  (¬ closer <:+: t → l.LexesWhole state offset kind (lead ++ t) next)

theorem encloses_of_scan {l : Language} {state next : LineState} {lead closer t : Text} {kind : Kind}
    (hne : closer ≠ [])
    (hclosed : ∀ u v, t = u ++ v → u.EndsAtFirst closer →
      l.scan state (lead ++ u ++ v) = (⟨kind, lead ++ u⟩ :: (l.scan .neutral v).1, (l.scan .neutral v).2))
    (hopen : ¬ closer <:+: t →
      l.scan state (lead ++ t) = (Run.ofPending (fun _ => kind) (lead ++ t).reverse, next))
    (offset : Nat) : l.Encloses state offset lead kind closer next t := by
  constructor
  · intro h
    obtain ⟨u, v, htext, hu⟩ := Text.exists_endsAtFirst h hne
    have hstretch : lead ++ u ≠ [] := by
      obtain ⟨w, c, rfl, -⟩ := hu.exists_concat hne
      simp
    exact ⟨u, v, htext, hu, lexesAs_of_scan hstretch (hclosed u v htext hu) offset⟩
  · intro h
    exact lexesWhole_of_scan (hopen h) offset

variable {l : Language} {d : Dialect} {state : LineState} {lead t : Text}

/-- A comment is enclosed where the scan comes to stand within it after its lead. -/
theorem encloses_comment (hl : l.dialect? = some d) (ht : '\n' ∉ t) (doc : Bool)
    (hstart : (Braces.machine d).scan state (lead ++ t) =
      (Braces.machine d).scanFrom (.block (.within doc)) lead.reverse t) (offset : Nat) :
    l.Encloses state offset lead (Braces.commentKind doc) Braces.commentCloser (Braces.commentState doc)
      t := by
  refine encloses_of_scan (by simp [Braces.commentCloser]) ?_ ?_ offset
  · intro u v htext hu
    have hline : '\n' ∉ u := fun h => ht (htext ▸ List.mem_append_left _ h)
    rw [List.append_assoc, ← htext, scan_of_dialect hl, hstart, htext,
      Braces.scanFrom_block_closed d doc _ hline hu, List.reverse_reverse, scan_of_dialect hl]
  · intro hopen
    rw [scan_of_dialect hl, hstart, Braces.scanFrom_block_open d doc _ ht hopen, List.reverse_append]

/-- A backquoted text is enclosed where the scan comes to stand within it after its lead. -/
theorem encloses_backquote (hl : l.dialect? = some d) (ht : '\n' ∉ t)
    (hstart : (Braces.machine d).scan state (lead ++ t) =
      (Braces.machine d).scanFrom .backquote lead.reverse t) (offset : Nat) :
    l.Encloses state offset lead .backquote ['`'] .backquote t := by
  refine encloses_of_scan (by simp) ?_ ?_ offset
  · intro u v htext hu
    have hline : '\n' ∉ u := fun h => ht (htext ▸ List.mem_append_left _ h)
    rw [List.append_assoc, ← htext, scan_of_dialect hl, hstart, htext, scan_of_dialect hl]
    obtain ⟨w, c, rfl, hclosed, hopen⟩ := hu.exists_concat (by simp)
    obtain ⟨hw, hc⟩ : '\n' ∉ w ∧ '\n' ≠ c := by simpa using hline
    rw [List.singleton_infix_iff] at hclosed hopen
    -- the only backquote is the last character
    have hquote : c = '`' := by simpa [hopen, eq_comm] using hclosed
    have hclose : Braces.answer d .backquote c = .close .backquote .neutral := if_pos hquote
    rw [List.append_assoc, List.singleton_append, ← List.append_assoc,
      Machine.scanFrom_of_takes_close (Braces.takes_backquote d hw hopen) hc.symm hclose,
      List.reverse_reverse]
    rfl
  · intro hopen
    rw [List.singleton_infix_iff] at hopen
    rw [scan_of_dialect hl, hstart, Machine.scanFrom_of_takes_all (Braces.takes_backquote d ht hopen),
      List.reverse_append]
    rfl

end Language

/-- Where a comment or a backquoted text is open or opened, it reaches through the first closer after
that, and the rest of the line is lexed from the neutral state; without a closer it reaches over the end
of the line. A comment is one of documentation if a star follows its opening. A comment after two slashes
is the rest of the line and leaves nothing open. -/
theorem comments_enclosed {l : Language} {d : Dialect} (hl : l.dialect? = some d) {t : Text} (ht : '\n' ∉ t)
    (offset : Nat) :
    l.Encloses .blockComment offset [] .blockComment ['*', '/'] .blockComment t ∧
    l.Encloses .docComment offset [] .docComment ['*', '/'] .docComment t ∧
    l.Encloses .backquote offset [] .backquote ['`'] .backquote t ∧
    (t.head? = some '*' →
      l.Encloses .neutral offset ['/', '*'] .docComment ['*', '/'] .docComment t) ∧
    (t.head? ≠ some '*' →
      l.Encloses .neutral offset ['/', '*'] .blockComment ['*', '/'] .blockComment t) ∧
    l.Encloses .neutral offset ['`'] .backquote ['`'] .backquote t ∧
    l.LexesWhole .neutral offset .lineComment ('/' :: '/' :: t) .neutral := by
  have hopened : (Braces.machine d).scan .neutral (['/', '*'] ++ t) =
      (Braces.machine d).scanFrom (.block (.within (t.head? == some '*'))) ['/', '*'].reverse t := by
    have htakes : (Braces.machine d).Takes .neutral ['/', '*'] (.block .opened) :=
      .cons (by decide) rfl (.cons (by decide) rfl .nil)
    rw [Machine.scan]
    exact (Machine.scanFrom_of_takes htakes [] t).trans (Braces.scanFrom_block_opened d _ ht)
  have hquoted : (Braces.machine d).scan .neutral (['`'] ++ t) =
      (Braces.machine d).scanFrom .backquote ['`'].reverse t := by
    have htakes : (Braces.machine d).Takes .neutral ['`'] .backquote := .cons (by decide) rfl .nil
    exact Machine.scanFrom_of_takes htakes [] t
  have hline : l.scan .neutral ('/' :: '/' :: t) =
      (Run.ofPending (fun _ => .lineComment) ('/' :: '/' :: t).reverse, .neutral) := by
    have htakes : (Braces.machine d).Takes .neutral ('/' :: '/' :: t) .lineComment :=
      .cons (by decide) rfl (.cons (by decide) rfl (Braces.takes_lineComment d ht))
    rw [Language.scan_of_dialect hl, Machine.scan]
    exact (Machine.scanFrom_of_takes_all htakes []).trans (by rw [List.append_nil]; rfl)
  refine ⟨Language.encloses_comment hl ht false rfl offset, Language.encloses_comment hl ht true rfl offset,
    Language.encloses_backquote hl ht rfl offset, ?_, ?_, Language.encloses_backquote hl ht hquoted offset,
    Language.lexesWhole_of_scan hline offset⟩
  · intro hstar
    rw [beq_iff_eq.2 hstar] at hopened
    exact Language.encloses_comment hl ht true hopened offset
  · intro hstar
    rw [beq_false_of_ne hstar] at hopened
    exact Language.encloses_comment hl ht false hopened offset

/-- The star that makes a comment one of documentation closes it with the slash after it, and a second
closer counts for nothing. -/
theorem comments_enclosed_shortest :
    let t := "*/ a */".toList
    Language.decoHack.dialect? = some .patch ∧ '\n' ∉ t ∧ t.head? = some '*' ∧
      Language.decoHack.Encloses .neutral 7 ['/', '*'] .docComment ['*', '/'] .docComment t := by
  have ht : '\n' ∉ "*/ a */".toList := by decide
  obtain ⟨-, -, -, hdoc, -⟩ := comments_enclosed (l := .decoHack) rfl ht 7
  exact ⟨rfl, ht, rfl, hdoc rfl⟩

end DoomLex
