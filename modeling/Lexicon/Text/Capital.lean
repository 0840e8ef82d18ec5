import Lexicon.Text
import Lexicon.Text.Capital.Table

/-!
# Upper case

The upper case of a text is the concatenation of the capitals of its
characters.  A capital is a text and not a character, since some characters
have a capital of two or three characters.  The mapping is that of the table,
and a character that the table does not name is its own capital.

Two characters outside ASCII have an ASCII letter as their capital, the
dotless i and the long s.  Some ligatures have several.
-/

namespace Lexicon.Text

/-- The capital a run gives to a code, when the code lies on the run. -/
def Capital.Run.at? (r : Capital.Run) (code : Nat) : Option Nat :=
  if r.first ≤ code ∧ code ≤ r.last ∧ (code - r.first) % r.step = 0 then
    some (r.capital + (code - r.first))
  else none

/-- The capital of a character. -/
def capital (c : Char) : Text :=
  match Capital.expansions.lookup c.toNat with
  | some codes => codes.map Char.ofNat
  | none =>
    match Capital.runs.findSome? (·.at? c.toNat) with
    | some code => [Char.ofNat code]
    | none => [c]

/-- The upper case of a text. -/
def upperCase (t : Text) : Text := t.flatMap capital

@[simp] theorem upperCase_nil : upperCase [] = [] := rfl

@[simp] theorem upperCase_append (a b : Text) : upperCase (a ++ b) = upperCase a ++ upperCase b := by
  simp [upperCase]

theorem capital_dotless_i : capital 'ı' = ['I'] := by decide +kernel

end Lexicon.Text
