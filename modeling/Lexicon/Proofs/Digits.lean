import Lexicon.Decimal.Notation
import Lexicon.Proofs.Numerals
import Lexicon.Proofs.Rounding

/-!
# The digits of a number written in full

A number is written from a coefficient and a power of ten.  The zeros at the end
of the coefficient are moved into the power, and then the point is set among the
digits, with zeros put in where there are too few.  Neither changes the value.

A power of ten may be negative, so the equations compare values multiplied by two
powers of ten, and a hypothesis says how far apart the two are.  The last section
puts the equations together with the rounding.  The digits before and behind the
point round to the magnitude they were written for (`nearest_positional`).
-/

namespace Lexicon.Decimal

open Lexeme Binary64

variable {c : Nat} {e : Int} {d : Decimal}

/-! ## Values of digits -/

theorem ten_pow_add (a b : Nat) : Nat.pow 10 (a + b) = Nat.pow 10 a * Nat.pow 10 b :=
  Nat.pow_add 10 a b

theorem digitsValue_append (t u : Text) :
    digitsValue (t ++ u) = digitsValue t * Nat.pow 10 u.length + digitsValue u := by
  rw [digitsValue, Nat.ofDigitChars_append, Nat.ofDigitChars_eq_ofDigitChars_zero, Nat.mul_comm]
  rfl

theorem digitsValue_zeros (n : Nat) : digitsValue (List.replicate n '0') = 0 := by
  rw [digitsValue, Nat.ofDigitChars_replicate_zero, Nat.mul_zero]

theorem digitsValue_append_zeros (t : Text) (n : Nat) :
    digitsValue (t ++ List.replicate n '0') = digitsValue t * Nat.pow 10 n := by
  rw [digitsValue_append, digitsValue_zeros, List.length_replicate, Nat.add_zero]

theorem digitsValue_zeros_append (n : Nat) (t : Text) :
    digitsValue (List.replicate n '0' ++ t) = digitsValue t := by
  rw [digitsValue_append, digitsValue_zeros, Nat.zero_mul, Nat.zero_add]

theorem digitsValue_toDigits (n : Nat) : digitsValue (Nat.toDigits 10 n) = n :=
  Nat.ofDigitChars_ten_toDigits

theorem isDigits_toDigits (n : Nat) : IsDigits (Nat.toDigits 10 n) := fun _ hc =>
  Nat.isDigit_of_mem_toDigits (by decide) (by decide) hc

theorem isDigits_zeros (n : Nat) : IsDigits (List.replicate n '0') := by
  intro d hd
  obtain rfl := List.eq_of_mem_replicate hd
  decide

theorem isDigits_append {t u : Text} (ht : IsDigits t) (hu : IsDigits u) : IsDigits (t ++ u) := by
  intro d hd
  rcases List.mem_append.1 hd with hd | hd
  · exact ht d hd
  · exact hu d hd

/-! ## Zeros at the end of a coefficient -/

/-- What is cut off with the zeros at the end are zeros. -/
theorem take_append_zeros (digits : Text) :
    digits.take (digits.length - (digits.reverse.takeWhile (· = '0')).length) ++
      List.replicate (digits.reverse.takeWhile (· = '0')).length '0' = digits := by
  have hsplit := List.takeWhile_append_dropWhile (p := (· = '0')) (l := digits.reverse)
  generalize hzeros : digits.reverse.takeWhile (· = '0') = zeros at hsplit ⊢
  generalize digits.reverse.dropWhile (· = '0') = kept at hsplit
  have hreplicate : zeros = List.replicate zeros.length '0' := by
    refine List.eq_replicate_iff.2 ⟨rfl, fun d hd => ?_⟩
    rw [← hzeros] at hd
    simpa using Text.forall_mem_takeWhile _ _ d hd
  have hdigits : digits = kept.reverse ++ List.replicate zeros.length '0' := by
    rw [← List.reverse_reverse digits, ← hsplit, List.reverse_append]
    conv => lhs; rw [hreplicate, List.reverse_replicate]
  rw [hdigits]
  simp

theorem isDigits_ofCoefficient (c : Nat) (e : Int) : IsDigits (ofCoefficient c e).digits := by
  simp only [ofCoefficient]
  split
  · exact isDigits_zeros 1
  · exact fun d hd => isDigits_toDigits c d (List.mem_of_mem_take hd)

/-- Moving zeros into the power of ten keeps the value. -/
theorem digitsValue_ofCoefficient {a b : Nat}
    (h : (a : Int) + (ofCoefficient c e).exponent = b + e) :
    digitsValue (ofCoefficient c e).digits * Nat.pow 10 b = c * Nat.pow 10 a := by
  simp only [ofCoefficient] at h ⊢
  split at h
  · rename_i hc
    subst hc
    rw [if_pos rfl, Nat.zero_mul]
    exact Nat.zero_mul _
  · rename_i hc
    rw [if_neg hc]
    have hvalue := congrArg digitsValue (take_append_zeros (Nat.toDigits 10 c))
    rw [digitsValue_append_zeros, digitsValue_toDigits] at hvalue
    generalize ((Nat.toDigits 10 c).reverse.takeWhile (· = '0')).length = zeros at h hvalue ⊢
    obtain rfl : b = zeros + a := by
      replace h : (a : Int) + (e + zeros) = b + e := h
      omega
    rw [ten_pow_add, ← Nat.mul_assoc, hvalue]

theorem le_exponent_ofCoefficient {k : Int} (hk : k ≤ 0) (he : k ≤ e) :
    k ≤ (ofCoefficient c e).exponent := by
  simp only [ofCoefficient]
  split
  · exact hk
  · show k ≤ e + _
    omega

/-! ## The point -/

theorem isDigits_positional (h : IsDigits d.digits) :
    IsDigits d.positional.1 ∧ IsDigits d.positional.2 := by
  simp only [positional]
  split
  · exact ⟨isDigits_append h (isDigits_zeros _), fun _ hc => absurd hc (List.not_mem_nil)⟩
  · split
    · rw [List.splitAt_eq]
      exact ⟨fun c hc => h c (List.mem_of_mem_take hc), fun c hc => h c (List.mem_of_mem_drop hc)⟩
    · exact ⟨isDigits_zeros 1, isDigits_append (isDigits_zeros _) h⟩

/-- Setting the point keeps the value. -/
theorem digitsValue_positional {a b : Nat}
    (h : (b : Int) = a + (d.exponent + d.positional.2.length)) :
    digitsValue (d.positional.1 ++ d.positional.2) * Nat.pow 10 a =
      digitsValue d.digits * Nat.pow 10 b := by
  simp only [positional] at h ⊢
  split at h
  · rename_i hexponent
    obtain rfl : b = d.exponent.toNat + a := by
      simp only [List.length_nil] at h
      omega
    rw [if_pos hexponent, List.append_nil, digitsValue_append_zeros, ten_pow_add, Nat.mul_assoc]
  · rename_i hexponent
    rw [if_neg hexponent]
    split at h
    · rename_i hplaces
      obtain rfl : b = a := by
        simp only [List.splitAt_eq, List.length_drop] at h
        omega
      rw [if_pos hplaces, List.splitAt_eq, List.take_append_drop]
    · rename_i hplaces
      obtain rfl : b = a := by
        simp only [List.length_append, List.length_replicate] at h
        omega
      rw [if_neg hplaces]
      show digitsValue (List.replicate 1 '0' ++ (List.replicate _ '0' ++ d.digits)) * _ = _
      rw [digitsValue_zeros_append, digitsValue_zeros_append]

/-- The digits around the point are worth the coefficient. -/
theorem digitsValue_positional_ofCoefficient {k shift : Nat}
    (hd : d = ofCoefficient c (shift - k)) :
    digitsValue (d.positional.1 ++ d.positional.2) * Nat.pow 10 k =
      c * Nat.pow 10 shift * Nat.pow 10 d.positional.2.length := by
  subst hd
  generalize hd : ofCoefficient c ((shift : Int) - k) = d
  have hle : -(k : Int) ≤ d.exponent := hd ▸ le_exponent_ofCoefficient (by omega) (by omega)
  obtain ⟨b, hb⟩ : ∃ b : Nat, (b : Int) = k + (d.exponent + d.positional.2.length) :=
    ⟨(k + (d.exponent + d.positional.2.length)).toNat, by omega⟩
  have hcoefficient : digitsValue d.digits * Nat.pow 10 b =
      c * Nat.pow 10 (shift + d.positional.2.length) := by
    subst hd
    refine digitsValue_ofCoefficient ?_
    omega
  rw [digitsValue_positional hb, hcoefficient, ten_pow_add, Nat.mul_assoc]

/-! ## Reading the digits back -/

/-- A fraction with a zero put in where it is empty. -/
def filled (fraction : Text) : Text := if fraction = [] then ['0'] else fraction

theorem filled_ne_nil (t : Text) : filled t ≠ [] := by
  unfold filled
  split
  · exact List.cons_ne_nil _ _
  · assumption

theorem isDigits_filled {t : Text} (h : IsDigits t) : IsDigits (filled t) := by
  unfold filled
  split
  · exact isDigits_zeros 1
  · exact h

/-- A zero behind the point keeps the quotient. -/
theorem digitsValue_filled (whole fraction : Text) :
    digitsValue (whole ++ filled fraction) * Nat.pow 10 fraction.length =
      digitsValue (whole ++ fraction) * Nat.pow 10 (filled fraction).length := by
  unfold filled
  split
  · rename_i hnil
    subst hnil
    rw [List.append_nil]
    exact Nat.mul_one _ ▸ digitsValue_append_zeros whole 1
  · rfl

theorem ten_pow_pos (n : Nat) : 0 < Nat.pow 10 n := Nat.pow_pos (by decide)

theorem nearest_filled (whole fraction : Text) (k : Nat) :
    nearest (digitsValue (whole ++ filled fraction) * k) (Nat.pow 10 (filled fraction).length) =
      nearest (digitsValue (whole ++ fraction) * k) (Nat.pow 10 fraction.length) := by
  refine nearest_congr (ten_pow_pos _) (ten_pow_pos _) ?_
  rw [Nat.mul_right_comm, digitsValue_filled, Nat.mul_right_comm]

theorem unity_mul_fineness {k : Nat} (hk : k = 1074) : unity * fineness = Nat.pow 10 k := by
  subst hk
  decide +kernel

/-- The digits around the point round to the magnitude they are written for. -/
theorem nearest_positional (tie : Tie) {m : Nat} (h : m < infiniteMagnitude)
    (hd : d = shortest tie m) :
    nearest (digitsValue (d.positional.1 ++ filled d.positional.2) * unity)
      (Nat.pow 10 (filled d.positional.2).length) = m := by
  have hreads := of_decide_eq_true (readsBack_scaled tie h)
  obtain ⟨k, hk⟩ : ∃ k : Nat, k = 1074 := ⟨1074, rfl⟩
  have hshift : ((scaled tie m).2 : Int) - 1074 = (scaled tie m).2 - k := by omega
  have hvalue := digitsValue_positional_ofCoefficient (hd.trans (by rw [shortest, hshift]))
  rw [nearest_filled, ← hreads]
  refine nearest_congr (ten_pow_pos _) fineness_pos ?_
  rw [Nat.mul_assoc, unity_mul_fineness hk, hvalue]

end Lexicon.Decimal
