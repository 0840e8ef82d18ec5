import Lexicon.Text.Visible.Table

/-!
# Visible characters

A character is visible when it prints a mark of its own.  A character that
prints nothing is not visible, and neither is one that prints on the character
before it.  The space is visible, and every other blank is not.
-/

namespace Lexicon.Text

namespace Visible

/-- Whether one of the ranges holds the code.  The ranges are sorted, so the
search ends at the first range above the code. -/
def covers : List (Nat × Nat) → Nat → Bool
  | [], _ => false
  | (first, last) :: rest, code =>
    if code < first then false else code ≤ last || covers rest code
termination_by structural ranges => ranges

end Visible

/-- Whether the character prints a mark of its own. -/
def isVisible (c : Char) : Bool :=
  !Visible.covers Visible.unprintable c.toNat && !Visible.covers Visible.extending c.toNat

end Lexicon.Text
