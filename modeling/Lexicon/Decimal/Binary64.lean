/-!
# Binary floating-point numbers

A `Binary64` is a number of the 64-bit interchange format, held as its bits: a
sign bit and 63 bits of magnitude.  All arithmetic here is exact arithmetic on
natural numbers, and a number is rounded once, at the end.

The magnitudes are in the order of the absolute values.  The one at
`infiniteMagnitude` stands for infinity, and those above it for no number.
Below it, `units` gives the absolute value in multiples of the least positive
number of the format, which is `2 ^ (-1074)`.  In this unit every finite number
is a natural number: the first `2 ^ 53` magnitudes are their own value, and
from there on each block of `2 ^ 52` magnitudes is twice as coarse as the block
before it.

`nearest n d` is the magnitude whose value is nearest to the quotient `n / d`,
both in units.  It scales the quotient by the power of two that brings it below
`2 ^ 53`, and rounds it to a whole number, a half going to the even neighbour.
The scale and the rounded number then add up to the magnitude, also when
rounding carries into the next block, since the blocks follow each other
without a gap.  What reaches the magnitude of infinity is out of range.
-/

namespace Lexicon

/-- A number of the 64-bit binary interchange format. -/
structure Binary64 where
  /-- The sign bit and the 63 bits of the magnitude. -/
  bits : UInt64
deriving DecidableEq, Repr, Inhabited

namespace Binary64

/-! ## Sign and magnitude -/

/-- The weight of the sign bit.  All magnitudes are below it. -/
def signWeight : Nat := Nat.pow 2 63

/-- How many magnitudes are equally far apart, and then the next as many. -/
def block : Nat := Nat.pow 2 52

/-- The magnitude of infinity.  All finite magnitudes are below it. -/
def infiniteMagnitude : Nat := 2047 * block

/-- The number with a given sign and magnitude. -/
def ofParts (negative : Bool) (magnitude : Nat) : Binary64 :=
  ⟨UInt64.ofNat (if negative then signWeight + magnitude else magnitude)⟩

/-- Whether the sign bit is set. -/
def negative (x : Binary64) : Bool := decide (signWeight ≤ x.bits.toNat)

/-- The bits below the sign. -/
def magnitude (x : Binary64) : Nat := x.bits.toNat % signWeight

/-- Whether the bits stand for a real number. -/
def isFinite (x : Binary64) : Bool := decide (x.magnitude < infiniteMagnitude)

/-- Whether the bits stand for no number at all. -/
def isNaN (x : Binary64) : Bool := decide (infiniteMagnitude < x.magnitude)

/-- Numbers are compared by value: the two zeros are equal, and what is no
number is not even equal to itself. -/
instance : BEq Binary64 where
  beq x y := !x.isNaN && !y.isNaN &&
    (decide (x = y) || decide (x.magnitude = 0 ∧ y.magnitude = 0))

theorem signWeight_eq : signWeight = 9223372036854775808 := rfl

theorem magnitude_ofParts {s : Bool} {m : Nat} (h : m < signWeight) :
    (ofParts s m).magnitude = m := by
  rw [signWeight_eq] at h
  cases s <;> simp [ofParts, magnitude, signWeight_eq] <;> omega

theorem negative_ofParts {s : Bool} {m : Nat} (h : m < signWeight) :
    (ofParts s m).negative = s := by
  rw [signWeight_eq] at h
  cases s <;> simp [ofParts, negative, signWeight_eq] <;> omega

theorem magnitude_lt (x : Binary64) : x.magnitude < signWeight := Nat.mod_lt _ (by decide)

/-- A number is its sign and its magnitude. -/
theorem ofParts_negative_magnitude (x : Binary64) : ofParts x.negative x.magnitude = x := by
  obtain ⟨bits⟩ := x
  have hbits := bits.toNat_lt
  have hsum : (if signWeight ≤ bits.toNat then signWeight + bits.toNat % signWeight
      else bits.toNat % signWeight) = bits.toNat := by
    rw [signWeight_eq]
    split <;> omega
  simp [ofParts, negative, magnitude, hsum]

/-! ## Values -/

/-- The absolute value of a finite magnitude, in multiples of `2 ^ (-1074)`. -/
def units (magnitude : Nat) : Nat :=
  if magnitude < block then magnitude
  else (block + magnitude % block) * Nat.pow 2 (magnitude / block - 1)

/-- The quotient rounded to a whole number, a half going to the even one. -/
def roundQuotient (n d : Nat) : Nat :=
  if 2 * (n % d) < d then n / d
  else if d < 2 * (n % d) then n / d + 1
  else n / d + n / d % 2

/-- The magnitude nearest to a quotient of units, a half going to the even
magnitude, and infinity when none is near enough. -/
def nearest (n d : Nat) : Nat :=
  let scale := (n / d).log2 - 52
  min infiniteMagnitude (scale * block + roundQuotient n (d * Nat.pow 2 scale))

/-! ## Making numbers -/

/-- How many units make up one. -/
@[irreducible] def unity : Nat := Nat.pow 2 1074

/-- The number nearest to the quotient `n / d` with a given sign. -/
def ofQuotient (negative : Bool) (n d : Nat) : Binary64 :=
  ofParts negative (nearest (n * unity) d)

/-- The number nearest to a natural number. -/
def ofNat (n : Nat) : Binary64 := ofQuotient false n 1

/-- The quotient of two finite numbers that are not negative.  A division by
zero gives zero. -/
def divide (x y : Binary64) : Binary64 :=
  ofQuotient false (units x.magnitude) (units y.magnitude)

theorem nearest_le (n d : Nat) : nearest n d ≤ infiniteMagnitude := Nat.min_le_left _ _

theorem magnitude_ofQuotient (s : Bool) (n d : Nat) :
    (ofQuotient s n d).magnitude = nearest (n * unity) d :=
  magnitude_ofParts (Nat.lt_of_le_of_lt (nearest_le _ _) (by decide))

end Binary64

end Lexicon
