import Lexicon.Lexeme.Quotation
import Lexicon.Proofs.Blanks

/-!
# The bodies of string literals

What stands between the quotes of a literal determines its content, and what
follows the closing quote takes part only by being at a boundary.  `Quotes body
content` states this for one body.  Every literal that is read has such a body
(`exists_quotes`).
-/

namespace Lexicon.Lexeme

open Text

variable {body content rest : Text}

/-- Whether a body in front of a closing quote is read as a content, whatever
boundary comes after. -/
def Quotes (body content : Text) : Prop :=
  ∀ rest : Text, rest.atBoundary = true →
    quotationBody (body ++ '"' :: rest) = .ok (content, rest)

theorem quotes_nil : Quotes [] [] := by
  intro rest hrest
  rw [List.nil_append, quotationBody, if_pos hrest]

theorem Quotes.cons {c : Char} (h : Quotes body content) (hquote : c ≠ '"')
    (hescape : c ≠ '\\') : Quotes (c :: body) (c :: content) := by
  intro rest hrest
  rw [List.cons_append, quotationBody, h rest hrest]
  · rfl
  · exact fun heq => hquote heq
  · exact fun heq => absurd heq hescape
  · exact fun _ _ heq => absurd heq hescape

theorem Quotes.escape (h : Quotes body content) (c : Char) :
    Quotes ('\\' :: c :: body) (unescape c :: content) := by
  intro rest hrest
  rw [List.cons_append, List.cons_append, quotationBody, h rest hrest]
  rfl

theorem exists_content_of_map_eq_ok {read : Except Fault (Text × Text)} {c : Char}
    (h : (read.map fun body => (c :: body.1, body.2)) = .ok (content, rest)) :
    ∃ tail, content = c :: tail ∧ read = .ok (tail, rest) := by
  cases read with
  | error cause => cases h
  | ok body =>
    obtain ⟨rfl, rfl⟩ : c :: body.1 = content ∧ body.2 = rest := by simpa [Except.map] using h
    exact ⟨body.1, rfl, rfl⟩

/-- A literal that is read is a body, a quote and a boundary. -/
theorem exists_quotes {text : Text} (h : quotationBody text = .ok (content, rest)) :
    ∃ body, text = body ++ '"' :: rest ∧ rest.atBoundary = true ∧ Quotes body content := by
  fun_induction quotationBody text generalizing content with
  | case1 => cases h
  | case2 r hboundary =>
    obtain ⟨rfl, rfl⟩ : [] = content ∧ r = rest := by simpa using h
    exact ⟨[], rfl, hboundary, quotes_nil⟩
  | case3 => cases h
  | case4 => cases h
  | case5 c t ih =>
    obtain ⟨tail, rfl, hread⟩ := exists_content_of_map_eq_ok h
    obtain ⟨body, rfl, hboundary, hquotes⟩ := ih hread
    exact ⟨'\\' :: c :: body, rfl, hboundary, hquotes.escape c⟩
  | case6 c t hquote hlast hescape ih =>
    obtain ⟨tail, rfl, hread⟩ := exists_content_of_map_eq_ok h
    obtain ⟨body, rfl, hboundary, hquotes⟩ := ih hread
    refine ⟨c :: body, rfl, hboundary, hquotes.cons hquote ?_⟩
    -- a backslash here would have taken the character after it, be it the closing quote
    rintro rfl
    cases body with
    | nil => exact hescape '"' rest rfl rfl
    | cons d body => exact hescape d (body ++ '"' :: rest) rfl rfl

theorem quotation_of_quotes (h : Quotes body content) (hrest : rest.atBoundary = true) :
    quotation ('"' :: (body ++ '"' :: rest)) = some (.token (.string content) rest) := by
  rw [quotation, h rest hrest]

theorem exists_quotes_of_quotation {text : Text} {token : Token Text}
    (h : quotation text = some (.token token rest)) :
    ∃ body content, text = '"' :: (body ++ '"' :: rest) ∧ rest.atBoundary = true ∧
      Quotes body content ∧ token = .string content := by
  fun_cases quotation text with
  | case1 t =>
    have hreading := Option.some.inj h
    split at hreading
    · rename_i content r hbody
      obtain ⟨rfl, rfl⟩ : Token.string content = token ∧ r = rest := by simpa using hreading
      obtain ⟨body, rfl, hboundary, hquotes⟩ := exists_quotes hbody
      exact ⟨body, content, rfl, hboundary, hquotes, rfl⟩
    · cases hreading
  | case2 t hopen => simp [quotation] at h

end Lexicon.Lexeme
