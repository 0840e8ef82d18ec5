import Lexicon.Proofs.Division
import Lexicon.Proofs.Spellings

/-!
# Reading what was written

The tokens of a source, written out with a space between neighbours, are read
again as the same tokens (`tokens_spellings_tokens`).  Comments are gone from the
written text, literals have other escapes, and every lexeme has new neighbours.

A lexeme takes no notice of its neighbours once there is a blank between them,
with one exception.  A name that begins with a slash and a star was read as a
name because no end of a block comment came after it, and such an end must not
appear.  So the proof keeps count of these ends.  No token brings more of them
into the written text than its lexeme had in the source, and where there were none
behind a name there are none behind its spelling (`Division.tokens_spellings`).
-/

namespace Lexicon

open Text Lexeme

variable {token : Token Text} {lexeme text tail : Text} {pieces : List Piece}
  {ks : List (Token Text)}

/-! ## Taking one lexeme off -/

/-- A lexeme at a blank gives its token, unless it opens a block comment that is
closed behind it. -/
theorem tokens_lexeme_append (h : IsLexeme token lexeme) (htail : AtBlank tail)
    (hclosings : ['/', '*'] <+: lexeme → closings tail = 0) :
    tokens (lexeme ++ tail) = token :: tokens tail := by
  have htrim := h.trimEnd_append tail
  have htrimmed : trimEnd (lexeme ++ trimEnd tail) = lexeme ++ trimEnd tail := by
    rw [← htrim, trimEnd_trimEnd]
  have hread : read (lexeme ++ trimEnd tail) = .token token (trimEnd tail) :=
    h.read_append htail.trimEnd (by rwa [closings_trimEnd])
  rw [← tokens_trimEnd (lexeme ++ tail), htrim, tokens_of_read_token hread htrimmed,
    tokens_trimEnd]

theorem tokens_lexeme (h : IsLexeme token lexeme) : tokens lexeme = [token] := by
  have htokens := tokens_lexeme_append h atBlank_nil (fun _ => rfl)
  rwa [List.append_nil, tokens_nil] at htokens

/-! ## Counting the ends of block comments -/

theorem Token.closings_le_lexeme (h : IsLexeme token lexeme) :
    token.closings ≤ Lexeme.closings lexeme := by
  cases token with
  | name n => rw [h.eq_of_name]; exact Nat.le_refl _
  | _ => exact Nat.zero_le _

/-- The names among the tokens of a text have no more ends of block comments than
the text. -/
theorem Division.closings_le (h : Division pieces text) :
    Token.totalClosings (pieces.filterMap Piece.token?) ≤ Lexeme.closings text := by
  induction h with
  | nil => exact Nat.le_refl _
  | blank _ _ ih => exact Nat.le_trans ih (closings_le_cons _ _)
  | comment _ _ ih =>
    refine Nat.le_trans ih (Nat.le_trans ?_ (closings_append_le _ _))
    exact Nat.le_add_left _ _
  | token hread _ ih =>
    refine Nat.le_trans ?_ (closings_append_le _ _)
    exact Nat.add_le_add (Token.closings_le_lexeme (isLexeme_of_read hread)) ih
  | residue => exact Nat.zero_le _

theorem closings_tokens_le (text : Text) :
    Token.totalClosings (tokens text) ≤ closings text := by
  obtain ⟨pieces, h⟩ := exists_division (trimEnd text)
  rw [tokens_of_division h, ← closings_trimEnd text]
  exact h.closings_le

/-- Behind a name that opens a block comment there is no end of one. -/
theorem closings_of_read {rest : Text} (hread : read (lexeme ++ rest) = .token token rest)
    (hopens : ['/', '*'] <+: lexeme) : closings rest = 0 := by
  obtain ⟨hblock, -, -⟩ := read_eq_token_iff.1 hread
  obtain ⟨body, rfl⟩ := hopens
  have hzero := blockComment_eq_none_iff.1 hblock (body ++ rest) rfl
  have hle := closings_append_le body rest
  omega

/-! ## The tokens of a source -/

theorem spellings_cons (k : Token Text) {ks : List (Token Text)} (h : ks ≠ []) :
    Token.spellings (k :: ks) = k.spelling ++ ' ' :: Token.spellings ks := by
  obtain ⟨l, ks, rfl⟩ := List.exists_cons_of_ne_nil h
  rfl

theorem spellings_singleton (k : Token Text) : Token.spellings [k] = k.spelling := by
  simp [Token.spellings]

/-- A token in front of written tokens. -/
theorem exists_spellings_cons (k : Token Text) (ks : List (Token Text)) :
    ∃ tail, Token.spellings (k :: ks) = k.spelling ++ tail ∧ AtBlank tail ∧
      closings tail = closings (Token.spellings ks) ∧
      tokens tail = tokens (Token.spellings ks) := by
  cases ks with
  | nil => exact ⟨[], by rw [spellings_singleton, List.append_nil], atBlank_nil, rfl, rfl⟩
  | cons l ks =>
    exact ⟨_, spellings_cons k (List.cons_ne_nil l ks), atBlank_cons.2 rfl,
      closings_cons_of_ne (by decide) _, tokens_cons_of_isBlank rfl _⟩

/-- The written tokens of a text have no more ends of block comments than the
text, and are read again as these tokens. -/
theorem Division.tokens_spellings (h : Division pieces text) (htrim : trimEnd text = text) :
    closings (Token.spellings (pieces.filterMap Piece.token?)) ≤ closings text ∧
      tokens (Token.spellings (pieces.filterMap Piece.token?)) = pieces.filterMap Piece.token? := by
  induction h with
  | nil => exact ⟨Nat.le_refl _, tokens_nil⟩
  | @blank c pieces rest _ _ ih =>
    obtain ⟨hle, htokens⟩ := ih (trimEnd_eq_self_of_suffix (List.suffix_cons c rest) htrim)
    exact ⟨Nat.le_trans hle (closings_le_cons c rest), htokens⟩
  | @comment part rest pieces _ _ ih =>
    obtain ⟨hle, htokens⟩ := ih (trimEnd_eq_self_of_suffix (List.suffix_append part rest) htrim)
    have happend := closings_append_le part rest
    exact ⟨by show closings (Token.spellings (pieces.filterMap _)) ≤ _; omega, htokens⟩
  | @token k part rest pieces hread _ ih =>
    obtain ⟨hle, htokens⟩ := ih (trimEnd_eq_self_of_suffix (List.suffix_append part rest) htrim)
    have hpart := isLexeme_of_read hread
    have hlexeme := Token.isLexeme_spelling hpart
    obtain ⟨tail, htail, hblank, hclosings, hrest⟩ :=
      exists_spellings_cons k (pieces.filterMap Piece.token?)
    show closings (Token.spellings (k :: pieces.filterMap _)) ≤ _ ∧
      tokens (Token.spellings (k :: pieces.filterMap _)) = k :: pieces.filterMap _
    rw [htail, closings_append_atBlank _ hblank, hclosings, Token.closings_spelling hlexeme]
    constructor
    · have hk := Token.closings_le_lexeme hpart
      have happend := closings_append_le part rest
      omega
    · rw [tokens_lexeme_append hlexeme hblank, hrest, htokens]
      -- an end in the written rest would have been one in the rest of the source
      intro hopens
      obtain ⟨n, rfl⟩ := Token.eq_name_of_opens hlexeme hopens
      obtain rfl := hpart.eq_of_name
      have hzero := closings_of_read hread hopens
      omega
  | @residue cause rest hne hstops hread =>
    have htokens := tokens_of_read_fault hne hstops hread htrim
    have hspellings : Token.spellings [.invalid rest] = rest := spellings_singleton _
    show closings (Token.spellings [.invalid rest]) ≤ _ ∧
      tokens (Token.spellings [.invalid rest]) = [.invalid rest]
    rw [hspellings]
    exact ⟨Nat.le_refl _, htokens⟩

/-! ## Tokens are equal to themselves -/

theorem beq_self_of_isFinite {x : Binary64} (h : x.isFinite = true) : (x == x) = true := by
  show (!x.isNaN && !x.isNaN && (decide (x = x) || _)) = true
  rw [Token.isNaN_of_isFinite h, decide_eq_true rfl]
  rfl

theorem isFinite_of_isLexeme {x : Binary64} {lexeme : Text} (h : IsLexeme (.float x) lexeme) :
    x.isFinite = true := by
  generalize htoken : Token.float x = token at h
  cases h with
  | float _ finite =>
    obtain rfl := Token.float.inj htoken
    exact finite
  | int => cases htoken
  | @name c run =>
    have hkind := Token.kind_nameToken (c :: run)
    rw [← htoken] at hkind
    rcases hkind with h | ⟨w, h⟩ <;> cases h
  | mark => cases htoken
  | string => cases htoken

theorem beq_self_of_isLexeme (h : IsLexeme token lexeme) : (token == token) = true := by
  cases h with
  | float _ finite => exact beq_self_of_isFinite finite
  | @name c run _ _ _ _ _ =>
    rw [nameToken]
    cases Word.ofText? (c :: run) with
    | none => exact beq_self_eq_true (c :: run)
    | some w => exact beq_self_eq_true w
  | int _ _ => exact beq_self_eq_true (_ : Int64)
  | mark m => exact beq_self_eq_true m
  | string _ => exact beq_self_eq_true (_ : Text)

theorem beq_self_of_forall (h : ∀ k ∈ ks, (k == k) = true) : (ks == ks) = true := by
  induction ks with
  | nil => rfl
  | cons k ks ih =>
    rw [List.forall_mem_cons] at h
    rw [List.cons_beq_cons, h.1, ih h.2]
    rfl

/-- A token of a text has a lexeme, or is the invalid one. -/
theorem Division.exists_lexeme (h : Division pieces text)
    (hk : token ∈ pieces.filterMap Piece.token?) :
    (∃ lexeme, IsLexeme token lexeme) ∨ ∃ rest, token = .invalid rest := by
  induction h with
  | nil => cases hk
  | blank _ _ ih => exact ih hk
  | comment _ _ ih => exact ih hk
  | token hread _ ih =>
    rcases List.mem_cons.1 hk with rfl | hk
    · exact Or.inl ⟨_, isLexeme_of_read hread⟩
    · exact ih hk
  | residue => exact Or.inr ⟨_, List.mem_singleton.1 hk⟩

theorem exists_lexeme_of_mem_tokens (hk : token ∈ tokens text) :
    (∃ lexeme, IsLexeme token lexeme) ∨ ∃ rest, token = .invalid rest := by
  obtain ⟨pieces, h⟩ := exists_division (trimEnd text)
  rw [tokens_of_division h] at hk
  exact h.exists_lexeme hk

/-- The numbers read are finite, so the tokens read are equal to themselves. -/
theorem beq_self_tokens (text : Text) : (tokens text == tokens text) = true := by
  refine beq_self_of_forall fun k hk => ?_
  rcases exists_lexeme_of_mem_tokens hk with ⟨lexeme, h⟩ | ⟨rest, rfl⟩
  · exact beq_self_of_isLexeme h
  · exact beq_self_eq_true rest

/-- The tokens of a source, written out with one space between neighbours, are
read again as the same tokens. -/
theorem tokens_spellings_tokens (source : Text) :
    tokens (Token.spellings (tokens source)) = tokens source ∧
      (tokens (Token.spellings (tokens source)) == tokens source) = true := by
  have htokens : tokens (Token.spellings (tokens source)) = tokens source := by
    obtain ⟨pieces, h⟩ := exists_division (trimEnd source)
    rw [tokens_of_division h]
    exact (h.tokens_spellings (trimEnd_trimEnd source)).2
  rw [htokens]
  exact ⟨rfl, beq_self_tokens source⟩

end Lexicon
