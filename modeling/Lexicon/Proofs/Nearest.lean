import Mathlib.Algebra.Order.Field.Basic
import Mathlib.Data.Rat.Cast.Order
import Mathlib.Order.Monotone.Odd
import Mathlib.Tactic.FieldSimp
import Mathlib.Tactic.Linarith
import Mathlib.Tactic.LinearCombination
import Lexicon.Proofs.Overflow

/-!
# The nearest number

A finite number stands for a rational one, its `value`.  `RoundsTo v x` says that the
rational number `v` is rounded to `x`: no finite number is nearer to `v`, and where another
one is as near the magnitude of `x` is even.  This determines the value of `x`
(`RoundsTo.value_eq`), since the magnitudes are in the order of the values and two even ones
have an odd one between them.

A quotient that is not out of range is rounded to its nearest number (`roundsTo_ofQuotient`).
The rounding takes place on a scale `2 ^ s`, and the rounded quotient is the whole number that
is nearest on it.  A finite number need not be a multiple of the scale.  One that is not
is less than the least number on this scale, and that one is nearer to the quotient
(`dvd_units_or_lt`).
-/

namespace Lexicon.Binary64

variable {n d m s q : Nat} {v t : ℚ} {x y : Binary64}

/-! ## Values -/

/-- The sign of a number as a factor. -/
def sign (negative : Bool) : ℤ := if negative then -1 else 1

theorem sign_mul_self (negative : Bool) : sign negative * sign negative = 1 := by
  cases negative <;> rfl

theorem abs_sign (negative : Bool) : |(sign negative : ℚ)| = 1 := by
  cases negative <;> simp [sign]

theorem sign_ne_zero (negative : Bool) : sign negative ≠ 0 := by
  cases negative <;> decide

theorem natAbs_sign_mul (negative : Bool) (k : ℤ) : (sign negative * k).natAbs = k.natAbs := by
  cases negative <;> simp [sign]

/-- The value of a number in multiples of the least positive one. -/
def signedUnits (x : Binary64) : ℤ := sign x.negative * units x.magnitude

/-- The rational number that a finite number stands for. -/
def value (x : Binary64) : ℚ := x.signedUnits / unity

/-- Whether a rational number is rounded to a number, a half going to the even magnitude. -/
structure RoundsTo (v : ℚ) (x : Binary64) : Prop where
  /-- The number is finite. -/
  isFinite : x.isFinite = true
  /-- No finite number is nearer. -/
  nearest : ∀ y : Binary64, y.isFinite = true → |v - x.value| ≤ |v - y.value|
  /-- Where another finite number is as near, the magnitude is even. -/
  even : ∀ y : Binary64, y.isFinite = true → |v - y.value| = |v - x.value| →
    y.value ≠ x.value → x.magnitude % 2 = 0

theorem cast_unity_pos : (0 : ℚ) < unity := by exact_mod_cast unity_pos

/-! ## Rounding to whole numbers -/

/-- The rounded quotient is off by a half at most, and it is even when it is off by a half. -/
theorem roundQuotient_bounds (n : Nat) (hd : 0 < d) :
    2 * (roundQuotient n d * d) ≤ 2 * n + d ∧ 2 * n ≤ 2 * (roundQuotient n d * d) + d ∧
      (2 * (roundQuotient n d * d) = 2 * n + d ∨ 2 * n = 2 * (roundQuotient n d * d) + d →
        roundQuotient n d % 2 = 0) := by
  have hn := Nat.div_add_mod n d
  have hr := Nat.mod_lt n hd
  rw [roundQuotient]
  generalize n / d = q at *
  generalize n % d = r at *
  rw [Nat.mul_comm] at hn
  split
  · generalize q * d = a at *
    omega
  · split
    · rw [Nat.add_mul]
      generalize q * d = a at *
      omega
    · rcases Nat.mod_two_eq_zero_or_one q with heven | hodd
      · rw [heven, Nat.add_zero]
        generalize q * d = a at *
        omega
      · rw [hodd, Nat.add_mul]
        generalize q * d = a at *
        omega

theorem abs_sub_roundQuotient_le (n : Nat) (hd : 0 < d) :
    |(n : ℚ) / d - roundQuotient n d| ≤ 1 / 2 := by
  have hpos : (0 : ℚ) < d := by exact_mod_cast hd
  obtain ⟨hlow, hhigh, -⟩ := roundQuotient_bounds n hd
  have hlow' : 2 * ((roundQuotient n d : ℚ) * d) ≤ 2 * n + d := by exact_mod_cast hlow
  have hhigh' : 2 * (n : ℚ) ≤ 2 * (roundQuotient n d * d) + d := by exact_mod_cast hhigh
  rw [abs_le, le_sub_iff_add_le, le_div_iff₀ hpos, sub_le_iff_le_add, div_le_iff₀ hpos]
  constructor <;> linarith

theorem even_of_abs_sub_roundQuotient (hd : 0 < d)
    (h : |(n : ℚ) / d - roundQuotient n d| = 1 / 2) : roundQuotient n d % 2 = 0 := by
  have hne : (d : ℚ) ≠ 0 := by exact_mod_cast Nat.ne_of_gt hd
  obtain ⟨-, -, heven⟩ := roundQuotient_bounds n hd
  refine heven ?_
  rcases eq_or_eq_neg_of_abs_eq h with h | h
  · right
    have hn : 2 * (n : ℚ) = 2 * (roundQuotient n d * d) + d := by
      rw [sub_eq_iff_eq_add, div_eq_iff hne] at h
      linarith
    exact_mod_cast hn
  · left
    have hn : 2 * ((roundQuotient n d : ℚ) * d) = 2 * n + d := by
      rw [sub_eq_iff_eq_add, div_eq_iff hne] at h
      linarith
    exact_mod_cast hn

/-- Every other whole number is at least a half away. -/
theorem half_le_abs_sub {a b : ℤ} (h : |t - a| ≤ 1 / 2) (hne : b ≠ a) : 1 / 2 ≤ |t - b| := by
  have hgap : (1 : ℤ) ≤ |a - b| := Int.one_le_abs (sub_ne_zero.2 hne.symm)
  have hgap' : (1 : ℚ) ≤ |(a : ℚ) - b| := by exact_mod_cast hgap
  have htriangle := abs_sub_le (a : ℚ) t b
  rw [abs_sub_comm (a : ℚ) t] at htriangle
  linarith

/-! ## The grid of the finite numbers -/

/-- A rounded quotient on its scale is the value of the magnitude made of both. -/
theorem units_scale (hq : q ≤ 2 * block) (hscale : s = 0 ∨ block ≤ q) :
    units (s * block + q) = q * Nat.pow 2 s := by
  have hblock := block_pos
  rcases Nat.lt_or_ge q block with hlt | hge
  · obtain rfl : s = 0 := hscale.resolve_right (Nat.not_le.2 hlt)
    rw [Nat.zero_mul, Nat.zero_add, units, if_pos hlt]
    exact (Nat.mul_one q).symm
  · obtain ⟨r, rfl⟩ := Nat.exists_eq_add_of_le hge
    have hnot : ¬s * block + (block + r) < block := by omega
    rw [units, if_neg hnot]
    rcases Nat.lt_or_ge r block with hr | hr
    · have hsum : s * block + (block + r) = r + (s + 1) * block := by
        rw [Nat.add_mul, Nat.one_mul]
        omega
      rw [hsum, Nat.add_mul_mod_self_right, Nat.mod_eq_of_lt hr,
        Nat.add_mul_div_right _ _ hblock, Nat.div_eq_of_lt hr, Nat.zero_add, Nat.add_sub_cancel]
    · -- the rounding has carried into the next block
      obtain rfl : r = block := by omega
      have hsum : s * block + (block + block) = (s + 2) * block := by
        rw [Nat.add_mul, Nat.two_mul]
      rw [hsum, Nat.mul_mod_left, Nat.mul_div_cancel _ hblock, ← Nat.two_mul]
      show (block + 0) * Nat.pow 2 (s + 1) = _
      rw [two_pow_succ, Nat.add_zero, Nat.mul_comm 2, Nat.mul_assoc, Nat.mul_comm 2]

/-- Every magnitude is made of a scale and a number on it. -/
theorem exists_eq_scale (m : Nat) :
    ∃ s q, m = s * block + q ∧ q < 2 * block ∧ (s = 0 ∨ block ≤ q) := by
  rcases Nat.lt_or_ge m block with hlt | hge
  · exact ⟨0, m, by omega, by omega, Or.inl rfl⟩
  · have hdiv := Nat.div_add_mod m block
    have hmod := Nat.mod_lt m block_pos
    have hquot := (Nat.one_le_div_iff block_pos).2 hge
    obtain ⟨s, hs⟩ : ∃ s, m / block = s + 1 := ⟨m / block - 1, by omega⟩
    rw [hs, Nat.mul_comm, Nat.add_mul] at hdiv
    exact ⟨s, block + m % block, by omega, by omega, Or.inr (by omega)⟩

/-- What is not a multiple of a scale is less than the numbers on this scale. -/
theorem dvd_units_or_lt (m s : Nat) :
    Nat.pow 2 s ∣ units m ∨ 0 < s ∧ units m < block * Nat.pow 2 s := by
  obtain ⟨e, q, rfl, hq, he⟩ := exists_eq_scale m
  rw [units_scale (Nat.le_of_lt hq) he]
  rcases Nat.lt_or_ge e s with hlt | hle
  · obtain ⟨j, rfl⟩ := Nat.exists_eq_add_of_lt hlt
    refine Or.inr ⟨by omega, ?_⟩
    calc q * Nat.pow 2 e
      _ < 2 * block * Nat.pow 2 e := Nat.mul_lt_mul_of_pos_right hq (Nat.two_pow_pos e)
      _ = block * Nat.pow 2 (e + 1) := by
        rw [two_pow_succ, Nat.mul_comm 2 block, Nat.mul_assoc, Nat.mul_comm 2]
      _ ≤ block * Nat.pow 2 (e + j + 1) :=
        Nat.mul_le_mul_left _ (Nat.pow_le_pow_right (by decide) (by omega))
  · exact Or.inl (Nat.dvd_mul_left_of_dvd (Nat.pow_dvd_pow 2 hle) q)

/-- The values are in the order of the magnitudes. -/
theorem units_strictMono : StrictMono units := by
  refine strictMono_nat_of_lt_succ fun m => ?_
  obtain ⟨s, q, rfl, hq, hs⟩ := exists_eq_scale m
  have hs' : s = 0 ∨ block ≤ q + 1 := hs.imp_right fun h => Nat.le_succ_of_le h
  rw [Nat.add_assoc, units_scale (Nat.le_of_lt hq) hs, units_scale hq hs']
  exact Nat.mul_lt_mul_of_pos_right (Nat.lt_succ_self q) (Nat.two_pow_pos s)

/-! ## The nearest number -/

/-- The scale on which a quotient is rounded, and what it is rounded to there. -/
theorem nearest_on_scale (hd : 0 < d) (hfinite : nearest n d < infiniteMagnitude) :
    ∃ s, units (nearest n d) = roundQuotient n (d * Nat.pow 2 s) * Nat.pow 2 s ∧
      nearest n d % 2 = roundQuotient n (d * Nat.pow 2 s) % 2 ∧
      (0 < s → block * (d * Nat.pow 2 s) ≤ n) := by
  generalize hs : (n / d).log2 - 52 = s
  have hpos : 0 < d * Nat.pow 2 s := Nat.mul_pos hd (Nat.two_pow_pos s)
  have hnearest : nearest n d = s * block + roundQuotient n (d * Nat.pow 2 s) := by
    rw [nearest, hs] at hfinite ⊢
    omega
  have hle : 0 < s → block * (d * Nat.pow 2 s) ≤ n := by
    intro h
    obtain ⟨j, rfl⟩ : ∃ j, s = j + 1 := ⟨s - 1, by omega⟩
    exact le_of_scale hs
  have hupper : roundQuotient n (d * Nat.pow 2 s) ≤ 2 * block := by
    have hdiv : n / (d * Nat.pow 2 s) < 2 * block :=
      (Nat.div_lt_iff_lt_mul hpos).2 (lt_of_scale hd hs)
    have hsucc := roundQuotient_le_succ n (d * Nat.pow 2 s)
    omega
  have hlower : s = 0 ∨ block ≤ roundQuotient n (d * Nat.pow 2 s) := by
    rcases Nat.eq_zero_or_pos s with h | h
    · exact Or.inl h
    · have hdiv := (Nat.le_div_iff_mul_le hpos).2 (hle h)
      exact Or.inr (Nat.le_trans hdiv (le_roundQuotient n _))
  refine ⟨s, ?_, ?_, hle⟩
  · rw [hnearest, units_scale hupper hlower]
  · have hblock : block = 4503599627370496 := rfl
    rw [hnearest, hblock]
    omega

/-- A number on the scale of the quotient is no nearer than the rounded quotient, and neither
is a number below the least one on the scale. -/
theorem closest_on_scale {a : ℤ} {r : ℚ} (hround : |t - a| ≤ 1 / 2)
    (heven : |t - a| = 1 / 2 → a % 2 = 0)
    (hr : (∃ k : ℤ, r = k) ∨ ∃ b : ℤ, b ≤ t ∧ r < b) :
    |t - a| ≤ |t - r| ∧ (|t - r| = |t - a| → r ≠ a → a % 2 = 0) := by
  rcases hr with ⟨k, rfl⟩ | ⟨b, hb, hr⟩
  · by_cases hk : k = a
    · subst hk
      exact ⟨le_refl _, fun _ hne => absurd rfl hne⟩
    · have hhalf := half_le_abs_sub hround hk
      exact ⟨le_trans hround hhalf, fun heq _ => heven (le_antisymm hround (heq ▸ hhalf))⟩
  · -- the number between the two is no nearer than the rounded quotient
    have hlt : |t - a| < |t - r| := by
      have hmiddle : |t - a| ≤ |t - b| := by
        by_cases hba : b = a
        · rw [hba]
        · exact le_trans hround (half_le_abs_sub hround hba)
      rw [abs_of_nonneg (sub_nonneg.2 hb)] at hmiddle
      rw [abs_of_nonneg (a := t - r) (by linarith)]
      linarith
    exact ⟨le_of_lt hlt, fun heq _ => absurd heq (ne_of_gt hlt)⟩

/-- The magnitude nearest to a quotient has the nearest value, and where another value is as
near it is even. -/
theorem nearest_closest (hd : 0 < d) (hfinite : nearest n d < infiniteMagnitude) {z : ℤ}
    (hz : z.natAbs = units m) :
    |(n : ℚ) / d - units (nearest n d)| ≤ |(n : ℚ) / d - z| ∧
      (|(n : ℚ) / d - z| = |(n : ℚ) / d - units (nearest n d)| →
        (z : ℚ) ≠ units (nearest n d) → nearest n d % 2 = 0) := by
  obtain ⟨s, hunits, hparity, hscale⟩ := nearest_on_scale hd hfinite
  have hp : 0 < Nat.pow 2 s := Nat.two_pow_pos s
  have hdp := Nat.mul_pos hd hp
  have hround := abs_sub_roundQuotient_le n hdp
  have heven := even_of_abs_sub_roundQuotient (n := n) hdp
  have hgrid := dvd_units_or_lt m s
  rw [hunits, hparity]
  generalize roundQuotient n (d * Nat.pow 2 s) = q at *
  generalize Nat.pow 2 s = p at *
  have hp' : (0 : ℚ) < p := by exact_mod_cast hp
  have hd' : (0 : ℚ) < d := by exact_mod_cast hd
  -- distances are measured on the scale
  have hdist : ∀ r : ℚ, |(n : ℚ) / d - r * p| = |(n : ℚ) / (d * p : ℕ) - r| * p := by
    intro r
    have hquot : (n : ℚ) / d - r * p = ((n : ℚ) / (d * p : ℕ) - r) * p := by
      push_cast
      field_simp
    rw [hquot, abs_mul, abs_of_pos hp']
  have hcandidate : (∃ k : ℤ, (z : ℚ) / p = k) ∨
      ∃ b : ℤ, (b : ℚ) ≤ (n : ℚ) / (d * p : ℕ) ∧ (z : ℚ) / p < b := by
    rcases hgrid with hdvd | ⟨hs, hlt⟩
    · obtain ⟨k, rfl⟩ : (p : ℤ) ∣ z := by
        rwa [← Int.natCast_dvd_natCast, ← hz, Int.dvd_natAbs] at hdvd
      refine Or.inl ⟨k, ?_⟩
      push_cast
      field_simp
    · refine Or.inr ⟨block, ?_, ?_⟩
      · have hle : ((block * (d * p) : ℕ) : ℚ) ≤ n := by exact_mod_cast hscale hs
        rw [le_div_iff₀ (by exact_mod_cast hdp)]
        exact_mod_cast hle
      · have hlt' : z < (block * p : ℕ) := by omega
        rw [div_lt_iff₀ hp']
        exact_mod_cast hlt'
  obtain ⟨hle, heven'⟩ := closest_on_scale (a := q) hround
    (fun h => by have := heven h; omega) hcandidate
  have hz' : (z : ℚ) = (z : ℚ) / p * p := by field_simp
  rw [hz', Nat.cast_mul, hdist, hdist]
  refine ⟨mul_le_mul_of_nonneg_right hle (le_of_lt hp'), fun heq hne => ?_⟩
  have hparity' := heven' (mul_right_cancel₀ (ne_of_gt hp') heq) fun h => hne (by rw [h]; rfl)
  omega

theorem negative_ofQuotient (negative : Bool) (n d : Nat) :
    (ofQuotient negative n d).negative = negative :=
  negative_ofParts (Nat.lt_of_le_of_lt (nearest_le _ _) (by decide))

/-- A quotient that does not become infinite is rounded to the nearest number. -/
theorem roundsTo_ofQuotient (negative : Bool) (n : Nat) (hd : 0 < d)
    (hfinite : (ofQuotient negative n d).isFinite = true) :
    RoundsTo (sign negative * (n / d)) (ofQuotient negative n d) := by
  have hmagnitude := magnitude_ofQuotient negative n d
  have hnearest : nearest (n * unity) d < infiniteMagnitude :=
    hmagnitude ▸ of_decide_eq_true hfinite
  have hsquare := sign_mul_self negative
  have hsquare' : (sign negative : ℚ) * sign negative = 1 := by exact_mod_cast hsquare
  have hunity := cast_unity_pos
  -- distances are measured in units, and without the sign
  have hdist : ∀ k : ℤ, |(sign negative : ℚ) * (n / d) - k / unity| * unity =
      |((n * unity : ℕ) : ℚ) / d - (sign negative * k : ℤ)| := by
    intro k
    have hfactor : ((n * unity : ℕ) : ℚ) / d - (sign negative * k : ℤ) =
        sign negative * (sign negative * (n / d) - k / unity) * unity := by
      have hk : (k : ℚ) / unity * unity = k := div_mul_cancel₀ _ (ne_of_gt hunity)
      push_cast
      linear_combination (-(n : ℚ) * unity / d) * hsquare' + (sign negative : ℚ) * hk
    rw [hfactor, abs_mul, abs_mul, abs_sign, one_mul, abs_of_pos hunity]
  have hself : sign negative * (ofQuotient negative n d).signedUnits =
      units (nearest (n * unity) d) := by
    rw [signedUnits, negative_ofQuotient, hmagnitude, ← mul_assoc, hsquare, one_mul]
  have hclosest : ∀ y : Binary64, _ := fun y =>
    nearest_closest hd hnearest (z := sign negative * y.signedUnits) (m := y.magnitude)
      (by rw [natAbs_sign_mul, signedUnits, natAbs_sign_mul, Int.natAbs_natCast])
  simp only [← Int.cast_natCast (R := ℚ) (units (nearest _ _)), ← hself, ← hdist] at hclosest
  refine ⟨hfinite, fun y _ => ?_, fun y _ heq hne => ?_⟩
  · exact le_of_mul_le_mul_right (hclosest y).1 hunity
  · rw [hmagnitude]
    refine (hclosest y).2 (congrArg (· * (unity : ℚ)) heq) fun h => hne ?_
    have hunits := mul_left_cancel₀ (sign_ne_zero negative) (Int.cast_injective h)
    rw [value, value, hunits]

/-- What is below the least positive number is rounded to it or to zero. -/
theorem nearest_le_one (h : n < d) : nearest n d ≤ 1 := by
  have hdiv : n / d = 0 := Nat.div_eq_of_lt h
  have hround := roundQuotient_le_succ n d
  rw [nearest, hdiv, Nat.log2_zero]
  show min _ (0 * block + roundQuotient n (d * 1)) ≤ 1
  rw [Nat.mul_one]
  omega

/-! ## There is one nearest value -/

/-- The place of a number in the order of the values. -/
def signedMagnitude (x : Binary64) : ℤ := sign x.negative * x.magnitude

theorem natAbs_signedMagnitude (x : Binary64) : x.signedMagnitude.natAbs = x.magnitude := by
  rw [signedMagnitude, natAbs_sign_mul, Int.natAbs_natCast]

/-- The value at a place, in multiples of the least positive number. -/
def unitsAt (k : ℤ) : ℤ := k.sign * units k.natAbs

theorem signedUnits_eq (x : Binary64) : x.signedUnits = unitsAt x.signedMagnitude := by
  rw [signedUnits, unitsAt, signedMagnitude, natAbs_sign_mul, Int.natAbs_natCast, Int.sign_mul]
  have hsign : (sign x.negative).sign = sign x.negative := by cases x.negative <;> rfl
  rw [hsign]
  rcases Nat.eq_zero_or_pos x.magnitude with h | h
  · rw [h]
    simp [units, block_pos]
  · rw [Int.sign_natCast_of_ne_zero (Nat.ne_of_gt h), mul_one]

theorem unitsAt_natCast (m : ℕ) : unitsAt m = units m := by
  rcases Nat.eq_zero_or_pos m with rfl | h
  · rfl
  · rw [unitsAt, Int.sign_natCast_of_ne_zero (Nat.ne_of_gt h), Int.natAbs_natCast, one_mul]

theorem unitsAt_lt_unitsAt_iff {j k : ℤ} : unitsAt j < unitsAt k ↔ j < k := by
  have hmono : StrictMono unitsAt := by
    refine strictMono_of_odd_strictMonoOn_nonneg (fun k => ?_) fun k hk l _ hkl => ?_
    · rw [unitsAt, unitsAt, Int.sign_neg, Int.natAbs_neg, neg_mul]
    · obtain ⟨a, rfl⟩ := Int.eq_ofNat_of_zero_le hk
      obtain ⟨b, rfl⟩ := Int.eq_ofNat_of_zero_le (le_of_lt (lt_of_le_of_lt hk hkl))
      rw [unitsAt_natCast, unitsAt_natCast]
      exact_mod_cast units_strictMono (by exact_mod_cast hkl)
  exact hmono.lt_iff_lt

theorem exists_signedMagnitude_eq {k : ℤ} (h : k.natAbs < infiniteMagnitude) :
    ∃ x : Binary64, x.isFinite = true ∧ x.signedMagnitude = k := by
  have hlt : k.natAbs < signWeight := Nat.lt_trans h (by decide)
  refine ⟨ofParts (decide (k < 0)) k.natAbs, ?_, ?_⟩
  · rw [isFinite, magnitude_ofParts hlt, decide_eq_true h]
  · rw [signedMagnitude, negative_ofParts hlt, magnitude_ofParts hlt, sign]
    split
    · rename_i hneg
      have := of_decide_eq_true hneg
      omega
    · rename_i hneg
      have := of_decide_eq_false (Bool.not_eq_true _ ▸ hneg)
      omega

theorem value_lt_value_iff : x.value < y.value ↔ x.signedMagnitude < y.signedMagnitude := by
  have hunity := cast_unity_pos
  rw [value, value, div_lt_div_iff_of_pos_right hunity, Int.cast_lt, signedUnits_eq,
    signedUnits_eq, unitsAt_lt_unitsAt_iff]

/-- Two numbers that a rational number is rounded to are not apart, since there would be a
nearer one between them. -/
theorem RoundsTo.not_value_lt (hx : RoundsTo v x) (hy : RoundsTo v y) : ¬x.value < y.value := by
  intro hlt
  have heq := le_antisymm (hy.nearest x hx.isFinite) (hx.nearest y hy.isFinite)
  have hevenx := hx.even y hy.isFinite heq (ne_of_gt hlt)
  have heveny := hy.even x hx.isFinite heq.symm (ne_of_lt hlt)
  have hfinitex := of_decide_eq_true hx.isFinite
  have hfinitey := of_decide_eq_true hy.isFinite
  have hplace := value_lt_value_iff.1 hlt
  have hsizex := natAbs_signedMagnitude x
  have hsizey := natAbs_signedMagnitude y
  -- the two places are even, so there is one between them
  obtain ⟨z, hfinite, hz⟩ := exists_signedMagnitude_eq (k := x.signedMagnitude + 1) (by omega)
  have hxz : x.value < z.value := value_lt_value_iff.2 (by omega)
  have hzy : z.value < y.value := value_lt_value_iff.2 (by omega)
  have hnearest := hx.nearest z hfinite
  rcases abs_eq_abs.1 heq with hsame | hopposite
  · linarith
  · rw [abs_of_nonneg (a := v - x.value) (by linarith)] at hnearest
    exact absurd hnearest (not_le.2 (abs_lt.2 ⟨by linarith, by linarith⟩))

/-- A rational number is rounded to one value at most. -/
theorem RoundsTo.value_eq (hx : RoundsTo v x) (hy : RoundsTo v y) : x.value = y.value :=
  le_antisymm (not_lt.1 (hy.not_value_lt hx)) (not_lt.1 (hx.not_value_lt hy))

end Lexicon.Binary64
