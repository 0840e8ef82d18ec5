import Lexicon.Proofs.Digits
import Lexicon.Proofs.Faults
import Lexicon.Proofs.Nearest
import Lexicon.Proofs.Rereading
import Lexicon.Proofs.WholeNumbers

/-!
# Numbers with a point are rounded once

A number with a point is a sign or none, digits or none, a point, at least one more digit and
a boundary or the end of the text.  No text has such parts in two ways (`FloatParts.unique`),
and the rule for numbers with a point declines the texts that do not have them.

What the parts denote is a rational number (`denotedRatio`), whatever the number of digits.  It
is read as the finite number that it is rounded to, with the sign of the literal also where it
becomes zero.  It is out of range from half-way between the largest finite number and the next
power of two, and only from there (`readsRounded`).
-/

namespace Lexicon.Lexeme

open Text Binary64

variable {sign whole fraction rest text : Text}

/-! ## Values -/

/-- The rational number that a sign and the digits on both sides of a point denote. -/
def denotedRatio (sign whole fraction : Text) : ℚ :=
  (if sign = ['-'] then -1 else 1) *
    (decimalValue whole + decimalValue fraction / 10 ^ fraction.length)

theorem quotient_eq (whole fraction : Text) :
    (digitsValue (whole ++ fraction) : ℚ) / (Nat.pow 10 fraction.length : ℕ) =
      decimalValue whole + decimalValue fraction / 10 ^ fraction.length := by
  have hpow : ((Nat.pow 10 fraction.length : ℕ) : ℚ) = 10 ^ fraction.length := Nat.cast_pow 10 _
  rw [Decimal.digitsValue_append, digitsValue_eq, digitsValue_eq, Nat.cast_add, Nat.cast_mul, hpow]
  field_simp

theorem denotedRatio_eq (sign whole fraction : Text) :
    denotedRatio sign whole fraction = Binary64.sign (sign == ['-']) *
      (digitsValue (whole ++ fraction) / (Nat.pow 10 fraction.length : ℕ)) := by
  rw [denotedRatio, quotient_eq, Binary64.sign]
  simp only [beq_iff_eq]
  split <;> norm_num

theorem abs_denotedRatio (sign whole fraction : Text) :
    |denotedRatio sign whole fraction| =
      digitsValue (whole ++ fraction) / (Nat.pow 10 fraction.length : ℕ) := by
  rw [denotedRatio_eq, abs_mul, Binary64.abs_sign, one_mul, abs_of_nonneg]
  positivity

/-! ## The range -/

theorem unity_eq {k : Nat} (hk : k = 1074) : unity = Nat.pow 2 k := by
  subst hk
  decide +kernel

theorem halfGap_eq {k : Nat} (hk : k = 970) : halfGap = Nat.pow 2 k := by
  subst hk
  decide +kernel

theorem cast_unity : (unity : ℚ) = 2 ^ 1074 := by
  obtain ⟨k, hk⟩ : ∃ k : ℕ, k = 1074 := ⟨1074, rfl⟩
  rw [unity_eq hk, ← hk]
  exact Nat.cast_pow 2 k

theorem cast_limit : (limit : ℚ) = 2 ^ 1024 - 2 ^ 970 := by
  obtain ⟨k, hk⟩ : ∃ k : ℕ, k = 970 := ⟨970, rfl⟩
  have hlimit : limit = (2 ^ 54 - 1) * halfGap := rfl
  have hgap : ((Nat.pow 2 k : ℕ) : ℚ) = 2 ^ k := Nat.cast_pow 2 k
  have hexponent : 1024 = 54 + k := by omega
  rw [hlimit, Nat.cast_mul, halfGap_eq hk, hgap, ← hk, hexponent, pow_add]
  norm_num
  ring

theorem isFinite_floatValue_iff :
    (floatValue sign whole fraction).isFinite = true ↔
      |denotedRatio sign whole fraction| < 2 ^ 1024 - 2 ^ 970 := by
  have hpos : 0 < Nat.pow 10 fraction.length := Decimal.ten_pow_pos _
  rw [floatValue, isFinite_ofQuotient_iff _ _ hpos, abs_denotedRatio, ← cast_limit,
    div_lt_iff₀ (by exact_mod_cast hpos)]
  norm_cast

theorem roundsTo_floatValue
    (hfinite : (floatValue sign whole fraction).isFinite = true) :
    RoundsTo (denotedRatio sign whole fraction) (floatValue sign whole fraction) := by
  rw [denotedRatio_eq]
  exact roundsTo_ofQuotient _ _ (Decimal.ten_pow_pos _) hfinite

theorem magnitude_floatValue_le_one (h : |denotedRatio sign whole fraction| < 1 / 2 ^ 1074) :
    (floatValue sign whole fraction).magnitude ≤ 1 := by
  have hpos : 0 < Nat.pow 10 fraction.length := Decimal.ten_pow_pos _
  rw [floatValue, magnitude_ofQuotient]
  refine nearest_le_one ?_
  rw [abs_denotedRatio, ← cast_unity, div_lt_div_iff₀ (by exact_mod_cast hpos) cast_unity_pos,
    one_mul] at h
  exact_mod_cast h

/-! ## Parts -/

/-- The parts of a number with a point are determined by the text. -/
theorem FloatParts.unique {sign' whole' fraction' rest' : Text}
    (h : FloatParts sign whole fraction rest) (h' : FloatParts sign' whole' fraction' rest')
    (htext : sign ++ (whole ++ '.' :: (fraction ++ rest)) =
      sign' ++ (whole' ++ '.' :: (fraction' ++ rest'))) :
    sign = sign' ∧ whole = whole' ∧ fraction = fraction' ∧ rest = rest' := by
  have hsplit := h.splitSign_eq
  rw [htext, h'.splitSign_eq] at hsplit
  obtain ⟨rfl, hunsigned⟩ := Prod.mk.inj hsplit
  have hpoint : ∀ t, Stops Char.isDigit ('.' :: t) := fun t => stops_cons.2 rfl
  obtain ⟨htake, hdrop⟩ := (hpoint (fraction ++ rest)).split_append h.isDigits_whole
  obtain ⟨htake', hdrop'⟩ := (hpoint (fraction' ++ rest')).split_append h'.isDigits_whole
  rw [← hunsigned, htake'] at htake
  rw [← hunsigned, hdrop'] at hdrop
  have hwhole := htake
  have htail := (List.cons.inj hdrop).2
  obtain ⟨htake, hdrop⟩ :=
    (stops_isDigit_of_atBoundary h.atBoundary).split_append h.isDigits_fraction
  obtain ⟨htake', hdrop'⟩ :=
    (stops_isDigit_of_atBoundary h'.atBoundary).split_append h'.isDigits_fraction
  rw [← htail, htake'] at htake
  rw [← htail, hdrop'] at hdrop
  exact ⟨rfl, hwhole.symm, htake.symm, hdrop.symm⟩

/-! ## Reading -/

/-- How the rule for numbers with a point reads a text, and what such numbers a source has. -/
structure ReadsRounded (text : Text) : Prop where
  /-- A text has the parts of a number with a point in one way at most. -/
  unique : ∀ sign whole fraction rest sign' whole' fraction' rest',
    FloatParts sign whole fraction rest → FloatParts sign' whole' fraction' rest' →
    text = sign ++ (whole ++ '.' :: (fraction ++ rest)) →
    text = sign' ++ (whole' ++ '.' :: (fraction' ++ rest')) →
    sign = sign' ∧ whole = whole' ∧ fraction = fraction' ∧ rest = rest'
  /-- A text without such parts is declined. -/
  declines : (∀ sign whole fraction rest, FloatParts sign whole fraction rest →
    text ≠ sign ++ (whole ++ '.' :: (fraction ++ rest))) → float text = none
  /-- A number is out of range from half-way to the power of two behind the largest finite one,
  and the fault repeats the literal. -/
  fails : ∀ sign whole fraction rest, FloatParts sign whole fraction rest →
    text = sign ++ (whole ++ '.' :: (fraction ++ rest)) →
    (float text = some (.fault (.outOfRange (sign ++ whole ++ '.' :: fraction))) ↔
      2 ^ 1024 - 2 ^ 970 ≤ |denotedRatio sign whole fraction|)
  /-- Any other number is read as the one with the nearest value, with the sign of the literal,
  and what comes behind the digits is left. -/
  reads : ∀ sign whole fraction rest, FloatParts sign whole fraction rest →
    text = sign ++ (whole ++ '.' :: (fraction ++ rest)) →
    |denotedRatio sign whole fraction| < 2 ^ 1024 - 2 ^ 970 →
    ∃ x : Binary64, RoundsTo (denotedRatio sign whole fraction) x ∧
      (∀ y : Binary64, RoundsTo (denotedRatio sign whole fraction) y → y.value = x.value) ∧
      x.negative = decide (sign = ['-']) ∧ float text = some (.token (.float x) rest)
  /-- A number below the least positive one is read as that one or as zero. -/
  small : ∀ sign whole fraction rest, FloatParts sign whole fraction rest →
    text = sign ++ (whole ++ '.' :: (fraction ++ rest)) →
    |denotedRatio sign whole fraction| < 1 / 2 ^ 1074 →
    ∃ x : Binary64, x.magnitude ≤ 1 ∧ float text = some (.token (.float x) rest)
  /-- The numbers of a source are finite. -/
  finite : ∀ x, Token.float x ∈ tokens text → x.isFinite = true ∧ x.isNaN = false

/-- Numbers with a point are rounded to the nearest finite number, or are out of range. -/
theorem readsRounded (text : Text) : ReadsRounded text := by
  constructor
  case unique =>
    rintro sign whole fraction rest sign' whole' fraction' rest' parts parts' rfl htext
    exact parts.unique parts' htext
  case declines => exact fun h => float_eq_none_iff.2 h
  case fails =>
    rintro sign whole fraction rest parts rfl
    have hfault : float (sign ++ (whole ++ '.' :: (fraction ++ rest))) =
        some (.fault (.outOfRange (sign ++ whole ++ '.' :: fraction))) ↔
          (floatValue sign whole fraction).isFinite = false := by
      rw [float_of_parts parts, Option.some.injEq, floatReading_eq_fault_iff]
      exact and_iff_left rfl
    rw [hfault, ← Bool.not_eq_true, isFinite_floatValue_iff, not_lt]
  case reads =>
    rintro sign whole fraction rest parts rfl hrange
    have hfinite := isFinite_floatValue_iff.2 hrange
    have hrounds := roundsTo_floatValue hfinite
    refine ⟨floatValue sign whole fraction, hrounds, fun y hy => hy.value_eq hrounds, ?_, ?_⟩
    · rw [floatValue, negative_ofQuotient]
      exact beq_eq_decide sign ['-']
    · rw [float_of_parts parts, floatReading_eq_token_iff.2 ⟨hfinite, rfl, rfl⟩]
  case small =>
    rintro sign whole fraction rest parts rfl hsmall
    have hmagnitude := magnitude_floatValue_le_one hsmall
    have hfinite : (floatValue sign whole fraction).isFinite = true :=
      decide_eq_true (lt_of_le_of_lt hmagnitude (by decide))
    refine ⟨floatValue sign whole fraction, hmagnitude, ?_⟩
    rw [float_of_parts parts, floatReading_eq_token_iff.2 ⟨hfinite, rfl, rfl⟩]
  case finite =>
    intro x hx
    have hfinite : x.isFinite = true := by
      rcases exists_lexeme_of_mem_tokens hx with ⟨lexeme, hlexeme⟩ | ⟨_, hinvalid⟩
      · exact isFinite_of_isLexeme hlexeme
      · cases hinvalid
    exact ⟨hfinite, Token.isNaN_of_isFinite hfinite⟩

end Lexicon.Lexeme
