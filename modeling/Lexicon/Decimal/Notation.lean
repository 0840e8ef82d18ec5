import Lexicon.Decimal.Shortest

/-!
# Notations for binary numbers

A notation is how a format writes the shortest digits of a number: without an
exponent, or in scientific form with one digit before the point.  `Notation`
lists the decisions, and each format that writes numbers states its own record.
-/

namespace Lexicon

namespace Decimal

/-! ## The two forms -/

/-- The power of ten of the first digit. -/
def order (d : Decimal) : Int := d.exponent + (d.digits.length : Int) - 1

/-- The digits before and after the point when no exponent is written. -/
def positional (d : Decimal) : Text × Text :=
  if 0 ≤ d.exponent then (d.digits ++ List.replicate d.exponent.toNat '0', [])
  else
    let places := (-d.exponent).toNat
    if places < d.digits.length then d.digits.splitAt (d.digits.length - places)
    else (['0'], List.replicate (places - d.digits.length) '0' ++ d.digits)

/-- A whole part and a fraction around a point.  An empty fraction is left out
with its point, or written as a zero when `pointed` is set. -/
def joined (pointed : Bool) (whole fraction : Text) : Text :=
  match fraction with
  | [] => if pointed then whole ++ ['.', '0'] else whole
  | _ :: _ => whole ++ '.' :: fraction

/-- A whole number with its sign, where a plus is written only on request. -/
def signed (plus : Bool) (n : Int) : Text :=
  let digits := Nat.toDigits 10 n.natAbs
  if n < 0 then '-' :: digits else if plus then '+' :: digits else digits

end Decimal

/-! ## The record of a format -/

/-- How a format writes numbers. -/
structure Notation where
  /-- The least and the greatest power of ten of a first digit for which no
  exponent is written.  Without bounds there never is one. -/
  bounds : Option (Int × Int)
  /-- Whether a whole number without an exponent keeps a fraction of zero. -/
  pointed : Bool
  /-- Whether an exponent that is not negative has a plus sign. -/
  plus : Bool
  /-- Which of two equally near decimals is written. -/
  tie : Decimal.Tie
deriving DecidableEq, Repr

namespace Notation

/-- Whether a first digit at this power of ten is written without exponent. -/
def isPositional (f : Notation) (order : Int) : Bool :=
  match f.bounds with
  | none => true
  | some (least, most) => decide (least ≤ order ∧ order ≤ most)

/-- A decimal in this notation. -/
def decimal (f : Notation) (d : Decimal) : Text :=
  if f.isPositional d.order then
    let (whole, fraction) := d.positional
    Decimal.joined f.pointed whole fraction
  else
    Decimal.joined false (d.digits.take 1) (d.digits.drop 1) ++
      'e' :: Decimal.signed f.plus d.order

/-- A number in this notation.  Zero and infinity keep their sign. -/
def write (f : Notation) (x : Binary64) : Text :=
  if x.isNaN then "NaN".toList
  else
    let sign := if x.negative then ['-'] else []
    if x.isFinite then sign ++ f.decimal (Decimal.shortest f.tie x.magnitude)
    else sign ++ "inf".toList

end Notation

end Lexicon
