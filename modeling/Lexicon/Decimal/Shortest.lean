import Lexicon.Text
import Lexicon.Decimal.Binary64

/-!
# The shortest decimal

A binary number is written with the fewest decimal digits that read back as the
number.  Among the decimals with so few digits the nearest one is taken.  Two
of them may be equally near, and which one is then taken is left to the format
that asks for the digits.

In the unit of `Binary64` every finite value is a natural number, so
`10 ^ 1074` times the value is one too, and its decimal digits are the exact
digits of the value.  A decimal with `n` digits is one of the two neighbours of
this number on the grid of the multiples of a power of ten.  `candidate?` tests
the two neighbours by reading them back, and `search` takes the first grid on
which the test succeeds, from one digit to seventeen.  Should none succeed, the
exact digits are taken, so what `shortest` returns always reads back.
-/

namespace Lexicon

/-- A decimal number: a run of digits, the last of which counts units of a
power of ten. -/
structure Decimal where
  /-- The digits, most significant first. -/
  digits : Text
  /-- The power of ten of the last digit. -/
  exponent : Int
deriving DecidableEq, Repr

namespace Decimal

/-- Which of two equally near decimals is taken. -/
inductive Tie where
  /-- The one of larger magnitude. -/
  | away
  /-- The one whose last digit is even. -/
  | even
deriving DecidableEq, Repr

/-- How many steps of the scale of `exact` make up one unit. -/
@[irreducible] def fineness : Nat := Nat.pow 5 1074

/-- `10 ^ 1074` times the value of a finite magnitude. -/
def exact (magnitude : Nat) : Nat := Binary64.units magnitude * fineness

/-- Whether `coefficient * 10 ^ shift`, on the scale of `exact`, reads back as
the magnitude. -/
def readsBack (magnitude coefficient shift : Nat) : Bool :=
  decide (Binary64.nearest (coefficient * Nat.pow 10 shift) fineness = magnitude)

/-- Which of two neighbours on a grid is taken, if one of them reads back.
`twice` is twice the distance to the lower one. -/
def choose (tie : Tie) (reads : Nat → Bool) (grid low twice : Nat) : Option Nat :=
  match reads low, reads (low + 1) with
  | false, false => none
  | true, false => some low
  | false, true => some (low + 1)
  | true, true =>
    if twice < grid then some low
    else if grid < twice then some (low + 1)
    else
      match tie with
      | .away => some (low + 1)
      | .even => some (low + low % 2)

/-- The neighbour of the exact value among the multiples of `10 ^ shift`, if
one of the two neighbours reads back. -/
def candidate? (tie : Tie) (magnitude shift : Nat) : Option Nat :=
  choose tie (readsBack magnitude · shift) (Nat.pow 10 shift)
    (exact magnitude / Nat.pow 10 shift) (2 * (exact magnitude % Nat.pow 10 shift))

/-- The first of the grids for one digit to seventeen on which there is a
candidate, with the candidate in front, for a number of so many digits. -/
def search (length : Nat) (candidate? : Nat → Option Nat) : Option (Nat × Nat) :=
  (List.range 17).findSome? fun n =>
    let shift := length - (n + 1)
    (candidate? shift).map fun coefficient => (coefficient, shift)

/-- A coefficient and its power of ten, without the zeros at the end. -/
def ofCoefficient (coefficient : Nat) (exponent : Int) : Decimal :=
  let digits := Nat.toDigits 10 coefficient
  let zeros := (digits.reverse.takeWhile (· = '0')).length
  if coefficient = 0 then ⟨['0'], 0⟩
  else ⟨digits.take (digits.length - zeros), exponent + zeros⟩

/-- The coefficient of the shortest decimal and its power of ten, on the scale of
`exact`. -/
def scaled (tie : Tie) (magnitude : Nat) : Nat × Nat :=
  (search (Nat.toDigits 10 (exact magnitude)).length (candidate? tie magnitude)).getD
    (exact magnitude, 0)

/-- The shortest decimal that reads back as a finite magnitude. -/
def shortest (tie : Tie) (magnitude : Nat) : Decimal :=
  ofCoefficient (scaled tie magnitude).1 ((scaled tie magnitude).2 - 1074)

end Decimal

end Lexicon
