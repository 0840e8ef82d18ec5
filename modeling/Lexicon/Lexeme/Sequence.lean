import Lexicon.Lexeme.Rules

/-!
# Sequences of tokens

The tokens of a text can be had without a window, by reading again and again.
The text is trimmed at both ends, its first lexeme is read, and what is left is
the next text.  Comments give no token.  The end is reached when nothing but
blanks is left, or when a fault has taken all of the text.
-/

namespace Lexicon.Lexeme

/-- Reading leaves less than there was. -/
theorem length_readTotal_lt {t : Text} (h : t ≠ []) : (readTotal t).2.length < t.length := by
  unfold readTotal
  split
  · rename_i rest hread
    exact (read_comment hread).2
  · rename_i token rest hread
    exact (read_token hread).2
  · exact List.length_pos_iff.2 h

/-- The tokens of a text, each read from the trimmed rest of the one before. -/
def readAll (text : Text) : List (Token Text) :=
  if _ : text.trim = [] then []
  else
    let step := readTotal text.trim
    step.1.toList ++ readAll step.2
termination_by text.length
decreasing_by exact Nat.lt_of_lt_of_le (length_readTotal_lt ‹_›) (Text.length_trim_le text)

end Lexicon.Lexeme
