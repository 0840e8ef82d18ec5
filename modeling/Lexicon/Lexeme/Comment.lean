import Lexicon.Lexeme.Reading

/-!
# Comments

A line comment starts with two slashes and goes on to the end of the line or of
the text.  The line feed is not part of it.  A block comment starts with a slash
and a star and goes on to the first star and slash after these two characters.
Where there is none, the slash and the star do not start a comment.
-/

namespace Lexicon.Lexeme

/-- The text after the first star and slash. -/
def afterClose? : Text → Option Text
  | [] => none
  | '*' :: '/' :: rest => some rest
  | _ :: rest => afterClose? rest
termination_by structural t => t

/-- Reads a block comment. -/
def blockComment : Rule
  | '/' :: '*' :: body => (afterClose? body).map .comment
  | _ => none

/-- Reads a line comment. -/
def lineComment : Rule
  | '/' :: '/' :: body => some (.comment (body.dropWhile (· != '\n')))
  | _ => none

/-! ## Progress -/

theorem suffix_of_afterClose? {t rest : Text} (h : afterClose? t = some rest) : rest <:+ t := by
  fun_induction afterClose? t with
  | case1 => simp at h
  | case2 r =>
    obtain rfl : r = rest := by simpa using h
    exact ⟨['*', '/'], rfl⟩
  | case3 c r _ ih => exact (ih h).trans (List.suffix_cons c r)

theorem blockComment_progresses : Rule.Progresses blockComment := by
  intro text reading h
  unfold blockComment at h
  split at h
  · rename_i body
    obtain ⟨rest, hrest, rfl⟩ := Option.map_eq_some_iff.1 h
    have hs := suffix_of_afterClose? hrest
    have hl := hs.length_le
    exact Reading.consumes_comment (hs.trans ⟨['/', '*'], rfl⟩) (by simp; omega)
  · simp at h

theorem lineComment_progresses : Rule.Progresses lineComment := by
  intro text reading h
  unfold lineComment at h
  split at h
  · rename_i body
    obtain rfl := Option.some.inj h
    have hs : body.dropWhile (· != '\n') <:+ body := List.dropWhile_suffix _
    have hl := hs.length_le
    exact Reading.consumes_comment (hs.trans ⟨['/', '/'], rfl⟩) (by simp; omega)
  · simp at h

end Lexicon.Lexeme
