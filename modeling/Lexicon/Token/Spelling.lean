import Lexicon.Decimal.Notation
import Lexicon.Token

/-!
# The spelling of tokens

Every token has a spelling, a text from which the same token is read again.  A
number with a point always shows its point.  A string literal is written on one
line, with the line feed, the quote and the backslash escaped.  A slash after a
star is escaped too, so that a literal never holds the end of a block comment.
Names and invalid rests are spelled as they were read, and reserved words in
lower case.
-/

namespace Lexicon

/-- Numbers are written out in full, with no exponent and no empty fraction,
and a number half-way between two shortest forms goes away from zero. -/
def plainNotation : Notation where
  bounds := none
  pointed := false
  plus := false
  tie := .away

namespace Token

/-- The spelling of a number with a point. -/
def floatSpelling (x : Binary64) : Text :=
  let digits := plainNotation.write x
  if digits.contains '.' then digits else digits ++ ['.', '0']

/-- The spelling of a whole number. -/
def intSpelling (n : Int64) : Text := Decimal.signed false n.toInt

/-- The content of a string literal with its escapes.  The flag tells whether
the character before was a star. -/
def escapedContent : Bool → Text → Text
  | _, [] => []
  | afterStar, c :: t =>
    let written :=
      if c = '\n' then ['\\', 'n']
      else if c = '"' ∨ c = '\\' ∨ (c = '/' ∧ afterStar) then ['\\', c]
      else [c]
    written ++ escapedContent (c == '*') t
termination_by structural _ t => t

/-- The spelling of a string literal. -/
def stringSpelling (content : Text) : Text := '"' :: escapedContent false content ++ ['"']

/-- A text from which the token is read again. -/
def spelling : Token Text → Text
  | float x => floatSpelling x
  | int n => intSpelling n
  | name t => t
  | string s => stringSpelling s
  | mark m => [m.char]
  | word w => w.spelling
  | invalid rest => rest

/-- The spellings of tokens with one space between neighbours. -/
def spellings (tokens : List (Token Text)) : Text := [' '].intercalate (tokens.map spelling)

end Token

end Lexicon
