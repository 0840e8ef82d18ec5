import Lexicon.Proofs.FreeQuotes
import Lexicon.Proofs.Spellings

/-!
# String literals

A literal is read by its grammar.  What follows its opening quote goes up to the first free
quote, and what stands in front of that is read piece by piece, a backslash and the character
it takes as one piece (`StandsFor`).  `Decodes` says what comes of this for any text, and it is
what the rule for literals gives (`quotationBody_eq_iff`).

The spelling of a content is one literal among those that stand for it.  It has one line, ends
no block comment, and is read as the content in front of every boundary and of nothing else
(`canonicalLiteral`).
-/

namespace Lexicon

open Text

namespace Lexeme

variable {body before content rest : Text} {result : Except Fault (Text × Text)}

/-! ## Contents -/

/-- Whether the text between two quotes stands for a content, piece by piece. -/
inductive StandsFor : Text → Text → Prop where
  /-- Nothing stands for nothing. -/
  | nil : StandsFor [] []
  /-- A backslash and the letter n stand for the line feed. -/
  | feed {body content : Text} (rest : StandsFor body content) :
      StandsFor ('\\' :: 'n' :: body) ('\n' :: content)
  /-- A backslash and any other character stand for the character. -/
  | taken {c : Char} {body content : Text} (notFeed : c ≠ 'n') (rest : StandsFor body content) :
      StandsFor ('\\' :: c :: body) (c :: content)
  /-- Any other character stands for itself. -/
  | itself {c : Char} {body content : Text} (notBackslash : c ≠ '\\')
      (rest : StandsFor body content) : StandsFor (c :: body) (c :: content)

theorem IsBody.standsFor (h : IsBody body) : StandsFor body (contentOf body) := by
  induction h with
  | nil => exact .nil
  | cons _ hbackslash _ ih =>
    rw [contentOf_cons hbackslash]
    exact .itself hbackslash ih
  | escape c _ ih =>
    rw [contentOf]
    by_cases hc : c = 'n'
    · subst hc
      exact .feed ih
    · rw [unescape, if_neg hc]
      exact .taken hc ih

/-- A text stands for one content only. -/
theorem StandsFor.eq_contentOf (h : StandsFor body content) : content = contentOf body := by
  induction h with
  | nil => rfl
  | feed _ ih => rw [contentOf, ← ih]; rfl
  | taken hc _ ih => rw [contentOf, ← ih, unescape, if_neg hc]
  | itself hbackslash _ ih => rw [contentOf_cons hbackslash, ← ih]

/-! ## Decoding -/

/-- A quote is the first free one exactly when a body stands in front of it. -/
theorem closing_iff_isBody : Closing before ↔ IsBody before := by
  refine ⟨fun h => ?_, IsBody.closing⟩
  rcases exists_isBody before with hbody | ⟨body, hbody, rfl⟩ | ⟨body, after, hbody, rfl⟩
  · exact hbody
  · exact absurd h.isFree (hbody.closing.isFree.not_isFree)
  · exact absurd hbody.closing.isFree (h.first body after rfl)

/-- What reading a literal comes to, by what follows its opening quote. -/
inductive Decodes : Text → Except Fault (Text × Text) → Prop where
  /-- No quote is free. -/
  | unterminated {body : Text} (unclosed : Unclosed body) : Decodes body (.error .unterminated)
  /-- The first free quote runs into something else than a boundary. -/
  | unseparated {before rest : Text} {c : Char} (closing : Closing before)
      (glued : isBoundary c = false) : Decodes (before ++ '"' :: c :: rest) (.error .unseparated)
  /-- The text in front of the first free quote stands for the content, and the text behind it
  is left. -/
  | content {before content rest : Text} (closing : Closing before)
      (stands : StandsFor before content) (boundary : rest.atBoundary = true) :
      Decodes (before ++ '"' :: rest) (.ok (content, rest))

/-- A literal comes to something. -/
theorem decodes_quotationBody (body : Text) : Decodes body (quotationBody body) := by
  rcases exists_closing body with hunclosed | ⟨before, after, hclosing, rfl⟩
  · rw [quotationBody_of_unclosed hunclosed]
    exact .unterminated hunclosed
  · rw [quotationBody_of_closing hclosing]
    cases hboundary : atBoundary after with
    | true => exact .content hclosing (closing_iff_isBody.1 hclosing).standsFor hboundary
    | false =>
      cases after with
      | nil => cases hboundary
      | cons c rest => exact .unseparated hclosing hboundary

/-- A literal is decoded by its first free quote and by the pieces in front of it. -/
theorem quotationBody_eq_iff : quotationBody body = result ↔ Decodes body result := by
  constructor
  · rintro rfl
    exact decodes_quotationBody body
  · intro h
    cases h with
    | unterminated unclosed => exact quotationBody_of_unclosed unclosed
    | @unseparated before rest c closing glued =>
      rw [quotationBody_of_closing closing, atBoundary_cons, glued, if_neg Bool.false_ne_true]
    | content closing stands boundary =>
      rw [quotationBody_of_closing closing, boundary, if_pos rfl, stands.eq_contentOf]

/-- A backslash takes the quote behind it, unless it has been taken itself. -/
example : quotationBody "\\\\\\\"\\n\" x".toList = .ok ("\\\"\n".toList, " x".toList) := rfl

end Lexeme

/-! ## The spelling of a content -/

namespace Token

open Lexeme

variable {content rest : Text}

theorem string_spelling_append (content rest : Text) :
    (string content).spelling ++ rest = '"' :: (escapedContent false content ++ '"' :: rest) := by
  simp [spelling, stringSpelling]

/-- A literal is read from the spelling of its content exactly in front of a boundary. -/
theorem quotation_spelling_iff :
    quotation ((string content).spelling ++ rest) = some (.token (.string content) rest) ↔
      rest.atBoundary = true := by
  rw [string_spelling_append]
  refine ⟨fun h => ?_, quotation_of_quotes (quotes_escapedContent false content)⟩
  obtain ⟨body, content', -, hboundary, -, -⟩ := exists_quotes_of_quotation h
  exact hboundary

/-- The rules that come before the one for literals read nothing here. -/
theorem read_spelling_iff :
    read ((string content).spelling ++ rest) = .token (.string content) rest ↔
      rest.atBoundary = true := by
  have hread : ∀ body,
      read ('"' :: body) = (quotation ('"' :: body)).getD (.fault .unexpected) := by
    intro body
    rw [read_cons_of_ne_slash (by decide), plain_quote, Option.none_or]
  rw [← @quotation_spelling_iff content rest, string_spelling_append, hread, Option.getD_eq_iff]
  simp

/-- What the spelling of a content is among the literals that stand for it. -/
structure CanonicalLiteral (content : Text) : Prop where
  /-- It has one line. -/
  newline_not_mem : '\n' ∉ (string content).spelling
  /-- It ends no block comment. -/
  closing_not_infix : ¬['*', '/'] <:+: (string content).spelling
  /-- It is read as a literal with this content in front of every boundary, and of nothing else. -/
  quotation_iff : ∀ rest : Text,
    quotation ((string content).spelling ++ rest) = some (.token (.string content) rest) ↔
      rest.atBoundary = true
  /-- No other rule comes before. -/
  read_iff : ∀ rest : Text,
    read ((string content).spelling ++ rest) = .token (.string content) rest ↔
      rest.atBoundary = true
  /-- It may be put in the place of any other literal with this content. -/
  canonical : ∀ text rest : Text, quotation text = some (.token (.string content) rest) →
    quotation ((string content).spelling ++ rest) = quotation text

/-- The spelling of a content is a canonical literal. -/
theorem canonicalLiteral (content : Text) : CanonicalLiteral content where
  newline_not_mem := newline_not_mem_stringSpelling content
  closing_not_infix := closings_eq_zero_iff.1 (closings_stringSpelling content)
  quotation_iff := fun rest => quotation_spelling_iff
  read_iff := fun rest => read_spelling_iff
  canonical := by
    intro text rest h
    obtain ⟨body, content', -, hboundary, -, -⟩ := exists_quotes_of_quotation h
    rw [h, quotation_spelling_iff.2 hboundary]

end Token

end Lexicon
