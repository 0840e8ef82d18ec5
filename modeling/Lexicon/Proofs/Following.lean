import Lexicon.Proofs.Extension

/-!
# What follows a lexeme

A token is read off a text with some rest behind it.  The rest may have had a part in the
choice: the point behind `5` in `5.x` could have belonged to a number, and so could the sign in
front of `-.5x`.  It makes no difference, though, if the rest is replaced by a text that is empty
or starts with a blank.  The same lexeme is then read as the same token, and what is left is the
new text (`read_append_iff`).

There is one exception.  A lexeme that opens a block comment is a name as long as nothing closes
the comment, and the new text may do so.  The comment then goes up to the first end of one in
the new text, as there is none in the lexeme (`afterClose?_append_of_closings`).
-/

namespace Lexicon.Lexeme

open Text

variable {lexeme rest tail t u : Text} {token : Token Text}

/-- What is looked for behind a text without pairs is found in what follows it. -/
theorem afterClose?_append_of_closings (h : closings t = 0) (hu : AtBlank u) :
    afterClose? (t ++ u) = afterClose? u := by
  induction t with
  | nil => rfl
  | cons c t ih =>
    have hpair : ∀ v, c = '*' → t ++ u = '/' :: v → False := by
      rintro v rfl hv
      cases t with
      | nil => exact hu.ne_cons rfl v hv
      | cons d t =>
        obtain rfl : d = '/' := (List.cons.inj hv).1
        cases h
    have hle := closings_le_cons c t
    rw [List.cons_append, afterClose?, ih (by omega)]
    exact hpair

/-- A lexeme that opens a block comment does not close it. -/
theorem IsLexeme.closings_eq_zero {body : Text} (h : IsLexeme token ('/' :: '*' :: body)) :
    closings body = 0 :=
  blockComment_eq_none_iff.1 (read_eq_token_iff.1 h.read_eq).1 body rfl

/-- The comment that a lexeme opens and a text behind it closes. -/
theorem IsLexeme.read_append_of_closes (h : IsLexeme token lexeme) (htail : AtBlank tail)
    (hopens : ['/', '*'] <+: lexeme) (hcloses : ['*', '/'] <:+: tail) :
    ∃ body rest, tail = body ++ '*' :: '/' :: rest ∧ ¬['*', '/'] <:+: body ∧
      read (lexeme ++ tail) = .comment rest := by
  obtain ⟨opened, hopened⟩ := hopens
  obtain rfl : '/' :: '*' :: opened = lexeme := hopened
  cases hclose : afterClose? tail with
  | none => exact absurd hcloses (closings_eq_zero_iff.1 (afterClose?_eq_none_iff.1 hclose))
  | some rest =>
    obtain ⟨body, htext, hbody⟩ := exists_of_afterClose? hclose
    refine ⟨body, rest, htext, closings_eq_zero_iff.1 hbody, ?_⟩
    refine read_eq_comment_iff.2 (Or.inl ?_)
    show (afterClose? (opened ++ tail)).map Reading.comment = _
    rw [afterClose?_append_of_closings h.closings_eq_zero htail, hclose]
    rfl

/-- Whatever was behind a lexeme when it was read, it is read as the same token in front of any
text that is empty or starts with a blank, exactly unless it opens a block comment and the text
closes it.  The comment is then read instead, up to where it is first closed. -/
theorem read_append_iff (hread : read (lexeme ++ rest) = .token token rest)
    (htail : tail = [] ∨ ∃ c t, tail = c :: t ∧ isBlank c = true) :
    (read (lexeme ++ tail) = .token token tail ↔
      ¬(['/', '*'] <+: lexeme ∧ ['*', '/'] <:+: tail)) ∧
    (['/', '*'] <+: lexeme ∧ ['*', '/'] <:+: tail →
      ∃ body rest, tail = body ++ '*' :: '/' :: rest ∧ ¬['*', '/'] <:+: body ∧
        read (lexeme ++ tail) = .comment rest) := by
  have hlexeme := isLexeme_of_read hread
  have hblank : AtBlank tail := by
    rcases htail with rfl | ⟨c, t, rfl, hc⟩
    · exact atBlank_nil
    · exact atBlank_cons.2 hc
  have hcomment := fun h : ['/', '*'] <+: lexeme ∧ ['*', '/'] <:+: tail =>
    hlexeme.read_append_of_closes hblank h.1 h.2
  refine ⟨⟨fun htoken h => ?_, fun h => ?_⟩, hcomment⟩
  · obtain ⟨_, _, -, -, hread'⟩ := hcomment h
    rw [htoken] at hread'
    cases hread'
  · refine hlexeme.read_append hblank fun hopens => closings_eq_zero_iff.2 fun hcloses => ?_
    exact h ⟨hopens, hcloses⟩

/-- In front of a parenthesis a slash and a star are a name, and in front of a blank and the end
of a comment they are not. -/
theorem read_append_iff_opening :
    read (['/', '*'] ++ [')']) = .token (.name ['/', '*']) [')'] ∧
      ([' ', '*', '/'] = [] ∨ ∃ c t, [' ', '*', '/'] = c :: t ∧ isBlank c = true) ∧
      read (['/', '*'] ++ [' ', '*', '/']) ≠ .token (.name ['/', '*']) [' ', '*', '/'] ∧
      ∃ rest, read (['/', '*'] ++ [' ', '*', '/']) = .comment rest := by
  have hread : read (['/', '*'] ++ [')']) = .token (.name ['/', '*']) [')'] := by
    rw [read_eq_token_iff]
    refine ⟨rfl, rfl, Or.inl ?_⟩
    show some (Reading.token (nameToken ['/', '*']) [')']) = _
    rw [nameToken_slash]
  have hblank : [' ', '*', '/'] = [] ∨ ∃ c t, [' ', '*', '/'] = c :: t ∧ isBlank c = true :=
    Or.inr ⟨' ', ['*', '/'], rfl, rfl⟩
  have hcloses : ['/', '*'] <+: ['/', '*'] ∧ ['*', '/'] <:+: [' ', '*', '/'] := by decide
  obtain ⟨hiff, hcomment⟩ := read_append_iff hread hblank
  obtain ⟨_, rest, -, -, hrest⟩ := hcomment hcloses
  exact ⟨hread, hblank, fun htoken => hiff.1 htoken hcloses, rest, hrest⟩

end Lexicon.Lexeme
