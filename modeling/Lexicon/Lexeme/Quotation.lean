import Lexicon.Lexeme.Reading

/-!
# String literals

A string literal stands between double quotes and may go over several lines.
Inside, a backslash and the character after it stand together for one
character: the line feed when it is the letter n, and that character itself
otherwise.  The first quote that is not taken by a backslash closes the literal,
and must be followed by a boundary.
-/

namespace Lexicon.Lexeme

/-- The character for which a backslash and `c` stand together. -/
def unescape (c : Char) : Char := if c = 'n' then '\n' else c

/-- What follows the opening quote: the content of the literal, and the text
after its closing quote. -/
def quotationBody : Text → Except Fault (Text × Text)
  | [] => .error .unterminated
  | '"' :: rest => if Text.atBoundary rest then .ok ([], rest) else .error .unseparated
  | ['\\'] => .error .unterminated
  | '\\' :: c :: t => (quotationBody t).map fun body => (unescape c :: body.1, body.2)
  | c :: t => (quotationBody t).map fun body => (c :: body.1, body.2)
termination_by structural t => t

/-- Reads a string literal. -/
def quotation : Rule
  | '"' :: body =>
    some (match quotationBody body with
      | .ok (content, rest) => .token (.string content) rest
      | .error cause => .fault cause)
  | _ => none

/-! ## Progress -/

theorem suffix_of_quotationBody {t content rest : Text}
    (h : quotationBody t = .ok (content, rest)) : rest <:+ t := by
  fun_induction quotationBody t generalizing content with
  | case1 => simp at h
  | case2 r _ =>
    obtain ⟨-, rfl⟩ : [] = content ∧ r = rest := by simpa using h
    exact List.suffix_cons _ _
  | case3 => simp at h
  | case4 => simp at h
  | case5 c t ih =>
    cases hb : quotationBody t with
    | error e => simp [hb, Except.map] at h
    | ok body =>
      rw [hb] at h
      obtain ⟨-, rfl⟩ : unescape c :: body.1 = content ∧ body.2 = rest := by
        simpa [Except.map] using h
      exact (ih hb).trans ⟨['\\', c], rfl⟩
  | case6 c t _ _ _ ih =>
    cases hb : quotationBody t with
    | error e => simp [hb, Except.map] at h
    | ok body =>
      rw [hb] at h
      obtain ⟨-, rfl⟩ : c :: body.1 = content ∧ body.2 = rest := by
        simpa [Except.map] using h
      exact (ih hb).trans (List.suffix_cons c t)

theorem quotation_progresses : Rule.Progresses quotation := by
  intro text reading h
  unfold quotation at h
  split at h
  · rename_i body
    obtain rfl := Option.some.inj h
    split
    · rename_i content rest hb
      have hs := suffix_of_quotationBody hb
      have hl := hs.length_le
      exact Reading.consumes_token _ (hs.trans (List.suffix_cons _ _)) (by simp; omega)
    · exact Reading.consumes_fault _ _
  · simp at h

end Lexicon.Lexeme
