import Lexicon.Proofs.Rereading

/-!
# Two sources, one after the other

A source and another one on the lines behind it are read as the tokens of the
first and the tokens of the second (`tokens_append_newline`).

The first source alone is read with its end in sight, and now there is more to
see.  The line feed keeps the two apart.  It ends a line comment and is a
boundary for everything else.  What may still be different is a name that opens
a block comment, if the second source closes it, and an invalid rest, which
would take the second source with it.
-/

namespace Lexicon

open Text Lexeme

variable {token : Token Text} {text rest b blanks : Text} {pieces : List Piece}

/-! ## The line feed between -/

theorem tokens_break (h : AllBlank blanks) (b : Text) :
    tokens (blanks ++ '\n' :: b) = tokens b := by
  rw [tokens_allBlank_append h, tokens_cons_of_isBlank rfl]

theorem closings_break (h : AllBlank blanks) (b : Text) :
    closings (blanks ++ '\n' :: b) = closings b := by
  rw [closings_allBlank_append h, closings_cons_of_ne (by decide)]

theorem atBlank_break (h : AllBlank blanks) (b : Text) : AtBlank (blanks ++ '\n' :: b) := by
  cases blanks with
  | nil => exact atBlank_cons.2 rfl
  | cons c blanks => exact atBlank_cons.2 (allBlank_cons.1 h).1

/-- The rest of a line of blanks. -/
theorem exists_dropWhile_break (h : AllBlank blanks) (b : Text) :
    ∃ blanks', AllBlank blanks' ∧
      (blanks ++ '\n' :: b).dropWhile (· != '\n') = blanks' ++ '\n' :: b := by
  induction blanks with
  | nil => exact ⟨[], allBlank_nil, rfl⟩
  | cons c blanks ih =>
    obtain ⟨-, hblanks⟩ := allBlank_cons.1 h
    rw [List.cons_append, List.dropWhile_cons]
    split
    · exact ih hblanks
    · exact ⟨c :: blanks, h, rfl⟩

/-- A first source that is divided is read in front of the second one as by
itself. -/
theorem Division.tokens_append (h : Division pieces text)
    (hvalid : ∀ k ∈ pieces.filterMap Piece.token?, k.isInvalid = false)
    (hopens : ∀ n, .name n ∈ pieces.filterMap Piece.token? → ['/', '*'] <+: n → closings b = 0)
    (hblanks : AllBlank blanks) (hb : trimEnd b = b) (hne : b ≠ []) :
    tokens (text ++ (blanks ++ '\n' :: b)) = pieces.filterMap Piece.token? ++ tokens b := by
  have htrim : ∀ u, trimEnd (u ++ (blanks ++ '\n' :: b)) = u ++ (blanks ++ '\n' :: b) := by
    intro u
    have htext : u ++ (blanks ++ '\n' :: b) = (u ++ blanks ++ ['\n']) ++ b := by simp
    rw [htext, trimEnd_append_of_ne_nil (by rwa [hb]), hb]
  induction h with
  | nil => exact tokens_break hblanks b
  | @blank c pieces rest hc _ ih =>
    rw [List.cons_append, tokens_cons_of_isBlank hc]
    exact ih hvalid hopens
  | @comment part rest pieces hread hrest ih =>
    rcases read_append_of_comment hread (blanks ++ '\n' :: b) with hread' | ⟨rfl, hread'⟩
    · rw [tokens_of_read_comment hread' (htrim _)]
      exact ih hvalid hopens
    · obtain ⟨blanks', hblanks', hdrop⟩ := exists_dropWhile_break hblanks b
      have hnil : pieces.filterMap Piece.token? = [] := by
        rw [← tokens_of_division_self hrest trimEnd_nil, tokens_nil]
      rw [tokens_of_read_comment hread' (htrim _), hdrop, tokens_break hblanks']
      show tokens b = pieces.filterMap Piece.token? ++ tokens b
      rw [hnil]
      rfl
  | @token k part rest pieces hread _ ih =>
    have hvalid' := (List.forall_mem_cons.1 hvalid).2
    have hread' := read_append_of_token hread (atBlank_break hblanks b) fun hprefix => by
      obtain ⟨n, rfl, hn⟩ := exists_name_of_opens hread hprefix
      rw [closings_break hblanks]
      exact hopens n (List.mem_cons_self ..) hn
    rw [tokens_of_read_token hread' (htrim _),
      ih hvalid' fun n hn => hopens n (List.mem_cons_of_mem _ hn)]
    rfl
  | @residue cause rest _ _ _ =>
    cases hvalid (.invalid rest) (List.mem_singleton.2 rfl)

/-- Two sources with a line feed between them are read one after the other.  The
first one must be valid, and must not open a block comment that the second one
closes. -/
theorem tokens_append_newline (a b : Text) (hvalid : ∀ k ∈ tokens a, k.isInvalid = false)
    (hopens : (∀ n, .name n ∈ tokens a → ¬['/', '*'] <+: n) ∨ ¬['*', '/'] <:+: b) :
    tokens (a ++ '\n' :: b) = tokens a ++ tokens b := by
  obtain ⟨blanks, hblanks, ha⟩ := exists_trimEnd_append a
  obtain ⟨pieces, h⟩ := exists_division (trimEnd a)
  have htokens := tokens_of_division h
  rw [htokens] at hvalid hopens ⊢
  by_cases hb : trimEnd b = []
  · -- nothing but blanks comes behind the first source
    have hall : AllBlank ('\n' :: b) := allBlank_cons.2 ⟨rfl, trimEnd_eq_nil_iff.1 hb⟩
    rw [tokens_append_allBlank hall, htokens, ← tokens_trimEnd b, hb, tokens_nil, List.append_nil]
  · have hclosings : ∀ n, .name n ∈ pieces.filterMap Piece.token? → ['/', '*'] <+: n →
        closings (trimEnd b) = 0 := by
      intro n hn hopen
      rcases hopens with hnone | hnone
      · exact absurd hopen (hnone n hn)
      · rw [closings_trimEnd, closings_eq_zero_iff]
        exact hnone
    have htrim : trimEnd (a ++ '\n' :: b) = trimEnd a ++ (blanks ++ '\n' :: trimEnd b) := by
      have hfeed : a ++ '\n' :: b = (trimEnd a ++ (blanks ++ ['\n'])) ++ b := by
        conv => lhs; rw [← ha]
        simp
      rw [hfeed, trimEnd_append_of_ne_nil hb]
      simp
    rw [← tokens_trimEnd, htrim, ← tokens_trimEnd b]
    exact h.tokens_append hvalid hclosings hblanks (trimEnd_trimEnd b) hb

/-- A name that opens a block comment may come before a line that does not close
it. -/
theorem tokens_append_newline_opening :
    (∀ k ∈ tokens ['/', '*'], k.isInvalid = false) ∧ ¬['*', '/'] <:+: ['*', ' ', '/'] ∧
      tokens ['/', '*', '\n', '*', ' ', '/'] = tokens ['/', '*'] ++ tokens ['*', ' ', '/'] := by
  have hlexeme : IsLexeme (.name ['/', '*']) ['/', '*'] :=
    nameToken_slash ['*'] ▸ .name rfl (List.all_eq_true.1 rfl) rfl rfl rfl
  have hvalid : ∀ k ∈ tokens ['/', '*'], k.isInvalid = false := by
    rw [tokens_lexeme hlexeme]
    exact List.forall_mem_singleton.2 rfl
  have hcloses : ¬['*', '/'] <:+: ['*', ' ', '/'] := by decide
  exact ⟨hvalid, hcloses, tokens_append_newline ['/', '*'] ['*', ' ', '/'] hvalid (Or.inr hcloses)⟩

end Lexicon
