import Lexicon.Proofs.Quotations

/-!
# The quotes that close a literal

A quote inside a literal closes it unless a backslash has taken it.  Which backslashes
have been taken themselves is seen from the text before the quote.  They are the
maximal run of backslashes in front of it, and every other one of them is taken by the
one before.  So a quote is free when this run has an even length (`IsFree`), and the
first free quote closes the literal.

Reading goes through the text from its start instead.  `IsBody` describes what it goes
through without finding the end, single characters and pairs of a backslash with the
character it takes.  Behind a body everything is free (`IsBody.isFree`), and within a
body no quote is (`IsBody.not_isFree`).  Every text is a body, or a body and a lone
backslash, or it goes on behind a body with a quote (`exists_isBody`).

Together they say what becomes of a literal by its first free quote alone
(`quotationBody_of_closing`, `quotationBody_of_unclosed`).
-/

namespace Lexicon.Lexeme

open Text

variable {body before after : Text} {c : Char}

/-! ## Free characters -/

/-- The number of backslashes at the end of a text. -/
def backslashes (t : Text) : Nat := (t.reverse.takeWhile (· == '\\')).length

/-- Whether a character behind a text is not taken by a backslash. -/
def IsFree (before : Text) : Prop := backslashes before % 2 = 0

theorem isFree_nil : IsFree [] := rfl

theorem backslashes_concat (t : Text) (c : Char) :
    backslashes (t ++ [c]) = if c = '\\' then backslashes t + 1 else 0 := by
  rw [backslashes, List.reverse_append, List.reverse_singleton, List.singleton_append,
    List.takeWhile_cons]
  by_cases hc : c = '\\'
  · subst hc
    rfl
  · simp [hc]

theorem isFree_concat (hc : c ≠ '\\') (t : Text) : IsFree (t ++ [c]) := by
  rw [IsFree, backslashes_concat, if_neg hc]

/-- A free backslash takes the next character. -/
theorem IsFree.not_isFree (h : IsFree before) : ¬IsFree (before ++ ['\\']) := by
  rw [IsFree] at h
  rw [IsFree, backslashes_concat, if_pos rfl]
  omega

/-- Behind what a free backslash takes, everything is free again. -/
theorem IsFree.pair (h : IsFree before) (c : Char) : IsFree (before ++ ['\\', c]) := by
  have hsplit : before ++ ['\\', c] = before ++ ['\\'] ++ [c] := by simp
  rw [IsFree] at h
  rw [hsplit, IsFree, backslashes_concat, backslashes_concat, if_pos rfl]
  split <;> omega

/-! ## Bodies -/

/-- What stands in a literal before its closing quote: characters for themselves, and
characters taken by a backslash. -/
inductive IsBody : Text → Prop where
  /-- Nothing. -/
  | nil : IsBody []
  /-- A character for itself. -/
  | cons {c : Char} {rest : Text} (notQuote : c ≠ '"') (notBackslash : c ≠ '\\')
      (isBody : IsBody rest) : IsBody (c :: rest)
  /-- A backslash and the character it takes. -/
  | escape (c : Char) {rest : Text} (isBody : IsBody rest) : IsBody ('\\' :: c :: rest)

/-- The content that a body stands for. -/
def contentOf : Text → Text
  | '\\' :: c :: t => unescape c :: contentOf t
  | c :: t => c :: contentOf t
  | [] => []
termination_by structural t => t

/-- Behind a body everything is free. -/
theorem IsBody.isFree (h : IsBody body) (hbefore : IsFree before) : IsFree (before ++ body) := by
  induction h generalizing before with
  | nil => rwa [List.append_nil]
  | @cons c body _ hbackslash _ ih =>
    rw [List.append_cons]
    exact ih (isFree_concat hbackslash before)
  | @escape c body _ ih =>
    have hsplit : before ++ '\\' :: c :: body = before ++ ['\\', c] ++ body := by simp
    rw [hsplit]
    exact ih (hbefore.pair c)

/-- Within a body no quote is free. -/
theorem IsBody.not_isFree_append (h : IsBody body) (hbefore : IsFree before) {t u : Text}
    (hsplit : body = t ++ '"' :: u) : ¬IsFree (before ++ t) := by
  induction h generalizing before t with
  | nil => cases t <;> cases hsplit
  | @cons c body hquote hbackslash _ ih =>
    cases t with
    | nil => exact absurd (List.cons.inj hsplit).1 hquote
    | cons d t =>
      obtain ⟨rfl, hrest⟩ := List.cons.inj hsplit
      rw [List.append_cons]
      exact ih (isFree_concat hbackslash before) hrest
  | @escape c body _ ih =>
    match t, hsplit with
    | [], hsplit => exact absurd (List.cons.inj hsplit).1 (by decide)
    | [d], hsplit =>
      obtain ⟨rfl, -⟩ := List.cons.inj hsplit
      exact hbefore.not_isFree
    | d :: e :: t, hsplit =>
      obtain ⟨rfl, hpair⟩ := List.cons.inj hsplit
      obtain ⟨rfl, hrest⟩ := List.cons.inj hpair
      have hassoc : before ++ '\\' :: c :: t = before ++ ['\\', c] ++ t := by simp
      rw [hassoc]
      exact ih (hbefore.pair c) hrest

theorem IsBody.not_isFree (h : IsBody body) {t u : Text} (hsplit : body = t ++ '"' :: u) :
    ¬IsFree t :=
  h.not_isFree_append isFree_nil hsplit

/-- A text is a body, or a body and a lone backslash, or a body and a quote. -/
theorem exists_isBody (text : Text) :
    IsBody text ∨ (∃ body, IsBody body ∧ text = body ++ ['\\']) ∨
      ∃ body after, IsBody body ∧ text = body ++ '"' :: after := by
  fun_induction quotationBody text with
  | case1 => exact Or.inl .nil
  | case2 rest _ => exact Or.inr (Or.inr ⟨[], rest, .nil, rfl⟩)
  | case3 rest _ => exact Or.inr (Or.inr ⟨[], rest, .nil, rfl⟩)
  | case4 => exact Or.inr (Or.inl ⟨[], .nil, rfl⟩)
  | case5 c t ih =>
    rcases ih with h | ⟨body, h, rfl⟩ | ⟨body, after, h, rfl⟩
    · exact Or.inl (h.escape c)
    · exact Or.inr (Or.inl ⟨'\\' :: c :: body, h.escape c, rfl⟩)
    · exact Or.inr (Or.inr ⟨'\\' :: c :: body, after, h.escape c, rfl⟩)
  | case6 c t hquote hlast hescape ih =>
    have hbackslash : c ≠ '\\' := by
      rintro rfl
      cases t with
      | nil => exact hlast rfl rfl
      | cons d t => exact hescape d t rfl rfl
    rcases ih with h | ⟨body, h, rfl⟩ | ⟨body, after, h, rfl⟩
    · exact Or.inl (h.cons hquote hbackslash)
    · exact Or.inr (Or.inl ⟨c :: body, h.cons hquote hbackslash, rfl⟩)
    · exact Or.inr (Or.inr ⟨c :: body, after, h.cons hquote hbackslash, rfl⟩)

/-! ## Reading a body -/

theorem quotationBody_cons (hquote : c ≠ '"') (hbackslash : c ≠ '\\') (t : Text) :
    quotationBody (c :: t) =
      (quotationBody t).map fun body => (c :: body.1, body.2) := by
  rw [quotationBody]
  · exact fun h => hquote h
  · exact fun h => absurd h hbackslash
  · exact fun _ _ h => absurd h hbackslash

theorem contentOf_cons (hbackslash : c ≠ '\\') (t : Text) :
    contentOf (c :: t) = c :: contentOf t := by
  rw [contentOf]
  exact fun _ _ h => absurd h hbackslash

/-- The first quote behind a body closes the literal. -/
theorem IsBody.quotationBody_quote (h : IsBody body) (after : Text) :
    quotationBody (body ++ '"' :: after) =
      if after.atBoundary then .ok (contentOf body, after) else .error .unseparated := by
  induction h with
  | nil => rw [List.nil_append, quotationBody, contentOf]
  | @cons c body hquote hbackslash _ ih =>
    rw [List.cons_append, quotationBody_cons hquote hbackslash, ih, contentOf_cons hbackslash]
    split <;> rfl
  | @escape c body _ ih =>
    rw [List.cons_append, List.cons_append, quotationBody, ih, contentOf]
    split <;> rfl

/-- A body without a quote behind it is not closed. -/
theorem IsBody.quotationBody_end (h : IsBody body) :
    quotationBody body = .error .unterminated ∧
      quotationBody (body ++ ['\\']) = .error .unterminated := by
  induction h with
  | nil => exact ⟨rfl, rfl⟩
  | @cons c body hquote hbackslash _ ih =>
    rw [List.cons_append, quotationBody_cons hquote hbackslash,
      quotationBody_cons hquote hbackslash, ih.1, ih.2]
    exact ⟨rfl, rfl⟩
  | @escape c body _ ih =>
    rw [List.cons_append, List.cons_append, quotationBody, quotationBody, ih.1, ih.2]
    exact ⟨rfl, rfl⟩

/-! ## The first free quote -/

/-- Whether a quote behind a text closes a literal: it is free, and no quote in the text
is. -/
structure Closing (before : Text) : Prop where
  /-- The quote is free. -/
  isFree : IsFree before
  /-- It is the first free one. -/
  first : ∀ t u, before = t ++ '"' :: u → ¬IsFree t

/-- Whether no quote of a text is free. -/
def Unclosed (text : Text) : Prop := ∀ before after, text = before ++ '"' :: after → ¬IsFree before

theorem IsBody.closing (h : IsBody body) : Closing body where
  isFree := h.isFree isFree_nil
  first := fun _ _ hsplit => h.not_isFree hsplit

theorem IsBody.unclosed (h : IsBody body) : Unclosed body := fun _ _ hsplit => h.not_isFree hsplit

/-- A lone backslash at the end is no quote. -/
theorem IsBody.unclosed_backslash (h : IsBody body) : Unclosed (body ++ ['\\']) := by
  intro before after hsplit
  rcases List.append_eq_append_iff.1 hsplit with ⟨t, rfl, hlast⟩ | ⟨t, rfl, hlast⟩
  · cases t with
    | nil => exact absurd (List.cons.inj hlast).1 (by decide)
    | cons d t => cases t <;> cases (List.cons.inj hlast).2
  · cases t with
    | nil => exact absurd (List.cons.inj hlast).1 (by decide)
    | cons d t =>
      obtain ⟨rfl, -⟩ := List.cons.inj hlast
      exact h.not_isFree rfl

/-- The first free quote is the only one. -/
theorem Closing.unique {before' after' : Text} (h : Closing before) (h' : Closing before')
    (hsplit : before ++ '"' :: after = before' ++ '"' :: after') :
    before = before' ∧ after = after' := by
  rcases List.append_eq_append_iff.1 hsplit with ⟨t, rfl, hrest⟩ | ⟨t, rfl, hrest⟩
  · cases t with
    | nil => exact ⟨(List.append_nil before).symm, (List.cons.inj hrest).2⟩
    | cons d t =>
      obtain ⟨rfl, -⟩ := List.cons.inj hrest
      exact absurd h.isFree (h'.first before t rfl)
  · cases t with
    | nil => exact ⟨List.append_nil before', (List.cons.inj hrest).2.symm⟩
    | cons d t =>
      obtain ⟨rfl, -⟩ := List.cons.inj hrest
      exact absurd h'.isFree (h.first before' t rfl)

/-- A text has a first free quote, or none is free. -/
theorem exists_closing (text : Text) :
    Unclosed text ∨ ∃ before after, Closing before ∧ text = before ++ '"' :: after := by
  rcases exists_isBody text with h | ⟨body, h, rfl⟩ | ⟨body, after, h, rfl⟩
  · exact Or.inl h.unclosed
  · exact Or.inl h.unclosed_backslash
  · exact Or.inr ⟨body, after, h.closing, rfl⟩

/-- A text without a free quote does not close the literal. -/
theorem quotationBody_of_unclosed (h : Unclosed body) :
    quotationBody body = .error .unterminated := by
  rcases exists_isBody body with hbody | ⟨t, hbody, rfl⟩ | ⟨t, after, hbody, rfl⟩
  · exact hbody.quotationBody_end.1
  · exact hbody.quotationBody_end.2
  · exact absurd hbody.closing.isFree (h t after rfl)

/-- The first free quote closes the literal. -/
theorem quotationBody_of_closing (h : Closing before) (after : Text) :
    quotationBody (before ++ '"' :: after) =
      if after.atBoundary then .ok (contentOf before, after) else .error .unseparated := by
  rcases exists_isBody (before ++ '"' :: after) with hbody | ⟨t, hbody, ht⟩ | ⟨t, u, hbody, ht⟩
  · exact absurd h.isFree (hbody.unclosed before after rfl)
  · exact absurd h.isFree (hbody.unclosed_backslash before after ht.symm)
  · obtain ⟨rfl, rfl⟩ := h.unique hbody.closing ht
    exact hbody.quotationBody_quote after

end Lexicon.Lexeme
