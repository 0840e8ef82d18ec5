import Lexicon.Text
import Lexicon.Text.Visible

/-!
# Quoted texts

A quoted text stands between double quotes on one line, whatever its
characters are.  The quote and the backslash are written after a backslash, and
so are the line feed, the carriage return, the tab and the null character, by a
letter or a digit.  Every other character that is not visible is written by its
code in hexadecimal digits between braces.  All visible characters stand for
themselves, the single quote among them.
-/

namespace Lexicon.Text

/-- The lower-case hexadecimal digits of a number, without leading zeros. -/
def hexadecimal (n : Nat) : Text := Nat.toDigits 16 n

/-- A character as it stands between the quotes. -/
def escape (c : Char) : Text :=
  if c = '"' ∨ c = '\\' then ['\\', c]
  else if c = '\n' then ['\\', 'n']
  else if c = '\r' then ['\\', 'r']
  else if c = '\t' then ['\\', 't']
  else if c = '\x00' then ['\\', '0']
  else if isVisible c then [c]
  else ['\\', 'u', '{'] ++ hexadecimal c.toNat ++ ['}']

/-- The quoted form of a text. -/
def quoted (t : Text) : Text := '"' :: t.flatMap escape ++ ['"']

end Lexicon.Text
