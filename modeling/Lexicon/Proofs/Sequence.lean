import Lexicon.Lexeme.Sequence
import Lexicon.Proofs.Drawing

/-!
# Streams and plain reading

A stream keeps a window on one source, which it narrows, and it remembers whether
it has finished.  Plain reading has neither.  It trims a text, reads what is at
its start, and goes on with the text that is left, until nothing is left.

Both give the same tokens.  As long as a stream has not finished, what it will
deliver is what plain reading finds in its view (`map_token_drain`).  A comment or
a token leaves the view and the text the same, and a fault leaves nothing of
either.  A whole source is the case of a new stream (`tokens_eq_readAll`).
-/

namespace Lexicon

open Text Lexeme

variable {text rest : Text} {token : Token Text}

/-! ## Rounds of plain reading -/

namespace Lexeme

theorem readAll_of_blank (h : text.trim = []) : readAll text = [] := by
  rw [readAll, dif_pos h]

theorem readAll_of_comment (h : read text.trim = .comment rest) : readAll text = readAll rest := by
  have hne := ne_nil_of_read h (by simp)
  rw [readAll, dif_neg hne]
  simp only [readTotal, h]
  rfl

theorem readAll_of_token (h : read text.trim = .token token rest) :
    readAll text = token :: readAll rest := by
  have hne := ne_nil_of_read h (by simp)
  rw [readAll, dif_neg hne]
  simp only [readTotal, h]
  rfl

/-- After a fault the next round finds nothing. -/
theorem readAll_of_fault {cause : Fault} (hne : text.trim ≠ [])
    (h : read text.trim = .fault cause) : readAll text = [.invalid text.trim] := by
  rw [readAll, dif_neg hne]
  simp only [readTotal, h]
  rw [readAll_of_blank rfl]
  rfl

end Lexeme

/-! ## Rounds and draws -/

/-- A stream that has not finished delivers what plain reading finds in its view. -/
theorem map_token_drain (s : TokenStream) (hs : s.finished = false) :
    s.drain.lexemes.map (·.token) = readAll s.window.view := by
  -- one comment or one token makes the view shorter
  induction hn : s.window.view.length using Nat.strongRecOn generalizing s with
  | ind n ih =>
    subst hn
    by_cases hview : s.window.trim.view = []
    · have hnext := TokenStream.next_of_exhausted hs hview
      rw [TokenStream.lexemes_drain_of_none (by rw [hnext]), readAll_of_blank hview]
      rfl
    · cases hread : read s.window.trim.view with
      | comment rest =>
        obtain ⟨⟨part, hpart⟩, hlength⟩ := read_comment hread
        have hshorter : rest.length < s.window.view.length :=
          Nat.lt_of_lt_of_le hlength (length_trim_le s.window.view)
        have hrest := ih rest.length hshorter
          { s with window := s.window.trim.pass part rest } hs rfl
        rw [TokenStream.lexemes_drain_of_comment hs hpart.symm (by rwa [hpart]), hrest,
          readAll_of_comment hread]
        rfl
      | token k rest =>
        obtain ⟨⟨part, hpart⟩, hlength⟩ := read_token hread
        have hshorter : rest.length < s.window.view.length :=
          Nat.lt_of_lt_of_le hlength (length_trim_le s.window.view)
        have hnext := TokenStream.next_of_token hs hpart.symm (by rwa [hpart])
        have hrest := ih rest.length hshorter
          ⟨s.window.trim.pass part rest, s.delivered + 1, false⟩ rfl rfl
        rw [TokenStream.lexemes_drain_of_some (by rw [hnext]), hnext, List.map_cons, hrest,
          readAll_of_token hread]
        rfl
      | fault cause =>
        have hnext := TokenStream.next_of_fault hs hview hread
        have hfinished : s.next.stream.finished = true := by rw [hnext]
        rw [TokenStream.lexemes_drain_of_some (by rw [hnext]), List.map_cons,
          TokenStream.lexemes_drain_of_none (by rw [TokenStream.next_of_finished hfinished]),
          readAll_of_fault hview hread]
        rfl

/-- The tokens of a source are those of plain reading. -/
theorem tokens_eq_readAll (source : Text) : tokens source = readAll source :=
  map_token_drain (TokenStream.ofText source) rfl

end Lexicon
