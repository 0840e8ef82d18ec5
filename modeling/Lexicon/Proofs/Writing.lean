import Lexicon.Proofs.Rereading

/-!
# Writing any list of tokens

A list of tokens need not come from a source.  It can be written out as long as
its numbers are finite, its names are names to the reader as well, and it has no
invalid token.  Between neighbours there may be any blanks (`Written`).

What is read is then what was written, with one exception that is described
exactly (`tokens_written_iff`).  A name that opens a block comment must not come
before a name that holds the end of one.

When it does, some name opens a block comment that is closed behind it, and the
comment takes at least one end away.  The names that are read have fewer ends of
block comments than those that were written, so the tokens cannot be the same.
One induction over the list keeps account of both outcomes
(`Written.tokens_cases`).
-/

namespace Lexicon

open Text Lexeme

variable {token : Token Text} {lexeme text tail : Text} {k l : Token Text}
  {ks ls : List (Token Text)}

/-! ## What can be written -/

/-- Whether a token can be written by itself and read again. -/
def Token.IsWritable : Token Text → Prop
  | .float x => x.isFinite = true
  | .name n => tokens n = [.name n]
  | .invalid _ => False
  | _ => True

theorem Token.IsWritable.isLexeme (h : k.IsWritable) : IsLexeme k k.spelling := by
  cases k with
  | float x => exact isLexeme_floatSpelling h
  | int n => exact isLexeme_intSpelling n
  | name n =>
    have hmem : Token.name n ∈ tokens n := by
      rw [show tokens n = [.name n] from h]
      exact List.mem_singleton.2 rfl
    rcases exists_lexeme_of_mem_tokens hmem with ⟨lexeme, hlexeme⟩ | ⟨rest, hrest⟩
    · exact hlexeme.eq_of_name ▸ hlexeme
    · cases hrest
  | string s => exact .string (quotes_escapedContent false s)
  | mark m => exact .mark m
  | word w => exact isLexeme_spelling_word w
  | invalid t => exact h.elim

/-- Whether a text holds the spellings of tokens with blanks between neighbours. -/
inductive Written : List (Token Text) → Text → Prop where
  /-- No token. -/
  | nil : Written [] []
  /-- One token. -/
  | single (k : Token Text) : Written [k] k.spelling
  /-- A token, blanks, and more tokens. -/
  | cons {k l : Token Text} {ks : List (Token Text)} {blanks text : Text}
      (allBlank : AllBlank blanks) (nonempty : blanks ≠ []) (written : Written (l :: ks) text) :
      Written (k :: l :: ks) (k.spelling ++ (blanks ++ text))

/-- One space between neighbours is enough. -/
theorem written_spellings (ks : List (Token Text)) : Written ks (Token.spellings ks) := by
  induction ks with
  | nil => exact .nil
  | cons k ks ih =>
    cases ks with
    | nil =>
      rw [spellings_singleton]
      exact .single k
    | cons l ks =>
      rw [spellings_cons k (List.cons_ne_nil l ks)]
      have hspace : AllBlank [' '] := allBlank_cons.2 ⟨rfl, allBlank_nil⟩
      exact .cons hspace (List.cons_ne_nil _ _) ih

/-- What stands behind the first token is at a blank, and is as good as the rest
of the tokens alone. -/
theorem Written.exists_tail (h : Written (k :: ks) text) :
    ∃ tail rest, text = k.spelling ++ tail ∧ AtBlank tail ∧ Written ks rest ∧
      closings tail = closings rest ∧ tokens tail = tokens rest := by
  cases h with
  | single => exact ⟨[], [], (List.append_nil _).symm, atBlank_nil, .nil, rfl, rfl⟩
  | @cons _ l ks blanks text hall hne hwritten =>
    exact ⟨blanks ++ text, text, rfl, hall.atBlank_append hne text, hwritten,
      closings_allBlank_append hall text, tokens_allBlank_append hall text⟩

theorem Written.closings_eq (hks : ∀ k ∈ ks, k.IsWritable) (h : Written ks text) :
    closings text = Token.totalClosings ks := by
  induction ks generalizing text with
  | nil =>
    cases h
    rfl
  | cons k ks ih =>
    rw [List.forall_mem_cons] at hks
    obtain ⟨tail, rest, rfl, htail, hrest, hclosings, -⟩ := h.exists_tail
    rw [closings_append_atBlank _ htail, Token.closings_spelling hks.1.isLexeme, hclosings,
      ih hks.2 hrest]
    rfl

/-! ## The exception -/

/-- Whether no name that opens a block comment comes before a name that holds the
end of one. -/
def Undisturbed (ks : List (Token Text)) : Prop :=
  ks.Pairwise fun k l => ∀ n m, k = .name n → l = .name m →
    ['/', '*'] <+: n → ¬['*', '/'] <:+: m

theorem Token.closings_eq_zero_iff :
    k.closings = 0 ↔ ∀ n, k = .name n → ¬['*', '/'] <:+: n := by
  cases k with
  | name n => simp [Token.closings, Lexeme.closings_eq_zero_iff]
  | _ => simp [Token.closings]

theorem totalClosings_eq_zero_iff :
    Token.totalClosings ks = 0 ↔ ∀ k ∈ ks, k.closings = 0 := by
  induction ks with
  | nil => simp [Token.totalClosings]
  | cons k ks ih => simp [Token.totalClosings_cons, ih]

/-- A first token disturbs no later one unless it opens a block comment and some
end of one comes after it. -/
theorem undisturbed_cons (h : IsLexeme k k.spelling) :
    Undisturbed (k :: ks) ↔
      (['/', '*'] <+: k.spelling → Token.totalClosings ks = 0) ∧ Undisturbed ks := by
  rw [Undisturbed, List.pairwise_cons, totalClosings_eq_zero_iff]
  refine and_congr_left fun _ => ⟨?_, ?_⟩
  · intro hk hopens l hl
    obtain ⟨n, rfl⟩ := Token.eq_name_of_opens h hopens
    exact Token.closings_eq_zero_iff.2 fun m hm => hk l hl n m rfl hm hopens
  · rintro hk l hl n m rfl hm hopens
    exact Token.closings_eq_zero_iff.1 (hk hopens l hl) m hm

/-- A block comment that is closed takes an end of one away. -/
theorem totalClosings_tokens_lt (h : IsLexeme token lexeme) (hopens : ['/', '*'] <+: lexeme)
    (hclosings : closings tail ≠ 0) :
    Token.totalClosings (tokens (lexeme ++ tail)) < closings (lexeme ++ tail) := by
  have htrim := h.trimEnd_append tail
  obtain ⟨body, rfl⟩ := hopens
  have htail := closings_append_le body (trimEnd tail)
  rw [closings_trimEnd] at htail
  cases hclose : afterClose? (body ++ trimEnd tail) with
  | none =>
    rw [afterClose?_eq_none_iff] at hclose
    omega
  | some rest =>
    have hread : read (['/', '*'] ++ body ++ trimEnd tail) = .comment rest := by
      refine read_eq_comment_iff.2 (Or.inl ?_)
      show (afterClose? (body ++ trimEnd tail)).map Reading.comment = _
      rw [hclose]
      rfl
    have htrimmed : trimEnd (['/', '*'] ++ body ++ trimEnd tail) =
        ['/', '*'] ++ body ++ trimEnd tail := by
      rw [← htrim, trimEnd_trimEnd]
    have hcount := closings_of_afterClose? hclose
    have hle := closings_append_le ['/', '*'] (body ++ trimEnd tail)
    rw [← closings_trimEnd, ← tokens_trimEnd, htrim]
    have hsum := closings_tokens_le rest
    rw [tokens_of_read_comment hread htrimmed, List.append_assoc]
    omega

/-! ## What is read -/

/-- The tokens that are read are those that were written, or their names have
fewer ends of block comments. -/
theorem Written.tokens_cases (hks : ∀ k ∈ ks, k.IsWritable) (h : Written ks text) :
    (Undisturbed ks ∧ tokens text = ks) ∨
      (¬Undisturbed ks ∧
        Token.totalClosings (tokens text) < Token.totalClosings ks) := by
  induction ks generalizing text with
  | nil =>
    cases h
    exact Or.inl ⟨List.Pairwise.nil, tokens_nil⟩
  | cons k ks ih =>
    have htotal := h.closings_eq hks
    rw [List.forall_mem_cons] at hks
    have hlexeme := hks.1.isLexeme
    obtain ⟨tail, rest, rfl, htail, hrest, hclosings, htokens⟩ := h.exists_tail
    have hsum := hrest.closings_eq hks.2
    rw [undisturbed_cons hlexeme]
    by_cases hk : ['/', '*'] <+: k.spelling → Token.totalClosings ks = 0
    · -- the first token is read, and the others decide
      have hread := tokens_lexeme_append hlexeme htail (by rwa [hclosings, hsum])
      rcases ih hks.2 hrest with ⟨hrest', heq⟩ | ⟨hrest', hlt⟩
      · left
        refine ⟨⟨hk, hrest'⟩, ?_⟩
        rw [hread, htokens, heq]
      · right
        refine ⟨fun hand => hrest' hand.2, ?_⟩
        rw [hread, htokens]
        exact Nat.add_lt_add_left hlt k.closings
    · -- the first token opens a comment, and later ends are there to close it
      right
      refine ⟨fun hand => hk hand.1, ?_⟩
      rw [Classical.not_imp] at hk
      rw [← htotal]
      exact totalClosings_tokens_lt hlexeme hk.1 (by rw [hclosings, hsum]; exact hk.2)

theorem Token.closings_of_beq (h : (k == l) = true) : k.closings = l.closings := by
  cases k with
  | name n =>
    cases l with
    | name m =>
      have hname : (n == m) = true := h
      rw [eq_of_beq hname]
    | _ => cases h
  | _ =>
    cases l with
    | name m => cases h
    | _ => rfl

theorem totalClosings_of_beq (h : (ks == ls) = true) :
    Token.totalClosings ks = Token.totalClosings ls := by
  induction ks generalizing ls with
  | nil =>
    cases ls with
    | nil => rfl
    | cons l ls => cases h
  | cons k ks ih =>
    cases ls with
    | nil => cases h
    | cons l ls =>
      rw [List.cons_beq_cons, Bool.and_eq_true] at h
      rw [Token.totalClosings_cons, Token.totalClosings_cons, Token.closings_of_beq h.1, ih h.2]

/-- Tokens that can be written are read again if and only if no name that opens a
block comment comes before a name that holds the end of one.  This is so for
all blanks between neighbours, and so for one space. -/
theorem tokens_written_iff (hks : ∀ k ∈ ks, k.IsWritable) :
    Written ks (Token.spellings ks) ∧ ∀ text, Written ks text →
      (tokens text = ks ↔ Undisturbed ks) ∧ ((tokens text == ks) = true ↔ Undisturbed ks) := by
  refine ⟨written_spellings ks, fun text h => ?_⟩
  rcases h.tokens_cases hks with ⟨hundisturbed, heq⟩ | ⟨hdisturbed, hlt⟩
  · have hself : (ks == ks) = true :=
      beq_self_of_forall fun k hk => beq_self_of_isLexeme (hks k hk).isLexeme
    rw [heq]
    exact ⟨iff_of_true rfl hundisturbed, iff_of_true hself hundisturbed⟩
  · have hne : ¬(tokens text == ks) = true := fun hbeq =>
      Nat.ne_of_lt hlt (totalClosings_of_beq hbeq)
    have hne' : ¬tokens text = ks := fun heq => Nat.ne_of_lt hlt (by rw [heq])
    exact ⟨iff_of_false hne' hdisturbed, iff_of_false hne hdisturbed⟩

/-- A name that opens a block comment can stand before a literal that holds the
end of one. -/
theorem tokens_written_opening :
    (∀ k ∈ [Token.name ['/', '*'], .string ['*', '/']], k.IsWritable) ∧
      tokens (Token.spellings [.name ['/', '*'], .string ['*', '/']]) =
        [.name ['/', '*'], .string ['*', '/']] := by
  have hlexeme : IsLexeme (.name ['/', '*']) ['/', '*'] :=
    nameToken_slash ['*'] ▸ .name rfl (List.all_eq_true.1 rfl) rfl rfl rfl
  have hks : ∀ k ∈ [Token.name ['/', '*'], .string ['*', '/']], k.IsWritable :=
    List.forall_mem_cons.2 ⟨tokens_lexeme hlexeme, List.forall_mem_singleton.2 trivial⟩
  obtain ⟨hwritten, hiff⟩ := tokens_written_iff hks
  refine ⟨hks, (hiff _ hwritten).1.2 ?_⟩
  simp [Undisturbed]

end Lexicon
