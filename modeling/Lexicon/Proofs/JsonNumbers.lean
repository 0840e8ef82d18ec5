import Lexicon.Json.Reader
import Lexicon.Proofs.Spellings

/-!
# Numbers in JSON are read back

A whole number in decimal digits and a finite binary number in the notation of JSON are each
read as the number they were written for (`spells_signed`, `spells_floatText`).

A number may only begin with a zero if its whole part is nothing but the zero.  The digits of a
coefficient do not begin with one unless the coefficient is zero, and cutting zeros off at their
end or setting the point changes nothing about this (`isWhole_positional`).

In the form with an exponent the digits are worth the same as in the shortest decimal, since
the exponent counts the places of the fraction.  So the quotient is the one that was tested
when the decimal was chosen (`nearest_digits`).
-/

namespace Lexicon

variable {c n : Nat} {e : Int} {d : Decimal}

/-! ## No needless zeros -/

namespace Decimal

open Lexeme Binary64

theorem head?_toDigits (hn : n ≠ 0) : (Nat.toDigits 10 n).head? ≠ some '0' := by
  induction n using Nat.strongRecOn with
  | ind n ih =>
    by_cases hlt : n < 10
    · have hdigit : ∀ d < 10, d ≠ 0 → d.digitChar ≠ '0' := by decide
      rw [Nat.toDigits_of_lt_base hlt, List.head?_cons, ne_eq, Option.some.injEq]
      exact hdigit n hlt hn
    · have hne : n / 10 ≠ 0 := by omega
      rw [Nat.toDigits_of_base_le (by decide) (Nat.le_of_not_lt hlt)]
      obtain ⟨a, t, ht⟩ := List.exists_cons_of_ne_nil (@Nat.toDigits_ne_nil (n / 10) 10)
      have hhead := ih (n / 10) (by omega) hne
      rw [ht] at hhead ⊢
      exact hhead

/-- The digits of a coefficient other than zero do not begin with a zero. -/
theorem head?_ofCoefficient (hc : c ≠ 0) (e : Int) :
    (ofCoefficient c e).digits ≠ [] ∧ (ofCoefficient c e).digits.head? ≠ some '0' := by
  have hdigits : (ofCoefficient c e).digits = (Nat.toDigits 10 c).take
      ((Nat.toDigits 10 c).length - ((Nat.toDigits 10 c).reverse.takeWhile (· = '0')).length) := by
    simp only [ofCoefficient, if_neg hc]
  have hsplit := take_append_zeros (Nat.toDigits 10 c)
  have hhead := head?_toDigits hc
  rw [← hdigits] at hsplit
  rw [← hsplit] at hhead
  cases h : (ofCoefficient c e).digits with
  | nil =>
    -- then all digits would be zeros
    rw [h, List.nil_append] at hsplit hhead
    cases hzeros : ((Nat.toDigits 10 c).reverse.takeWhile (· = '0')).length with
    | zero =>
      rw [hzeros] at hsplit
      exact absurd hsplit.symm Nat.toDigits_ne_nil
    | succ k =>
      rw [hzeros] at hhead
      exact absurd rfl hhead
  | cons a t =>
    rw [h] at hhead
    exact ⟨List.cons_ne_nil a t, hhead⟩

theorem ofCoefficient_ne_nil (c : Nat) (e : Int) : (ofCoefficient c e).digits ≠ [] := by
  by_cases hc : c = 0
  · rw [hc]
    exact List.cons_ne_nil '0' []
  · exact (head?_ofCoefficient hc e).1

end Decimal

namespace Json

open Decimal Lexeme Binary64

theorem isDigits_iff {t : Text} : isDigits t = true ↔ t ≠ [] ∧ IsDigits t := by
  simp [isDigits, IsDigits]

theorem isWhole_of_head? {t : Text} (hne : t ≠ []) (hdigits : IsDigits t)
    (hhead : t.head? ≠ some '0') : isWhole t = true := by
  rw [isWhole, isDigits_iff.2 ⟨hne, hdigits⟩]
  simpa using Or.inr hhead

theorem isWhole_singleton {a : Char} (h : a.isDigit = true) : isWhole [a] = true := by
  have hdigits : isDigits [a] = true := isDigits_iff.2 ⟨List.cons_ne_nil a [], by simpa [IsDigits]⟩
  by_cases ha : a = '0'
  · rw [ha]
    rfl
  · rw [isWhole, hdigits]
    simp [ha]

theorem isWhole_toDigits (n : Nat) : isWhole (Nat.toDigits 10 n) = true := by
  by_cases hn : n = 0
  · rw [hn]
    rfl
  · exact isWhole_of_head? Nat.toDigits_ne_nil (isDigits_toDigits n) (head?_toDigits hn)

/-- The digits before the point are a whole part. -/
theorem isWhole_positional (hd : d = ofCoefficient c e) : isWhole d.positional.1 = true := by
  by_cases hc : c = 0
  · subst hc
    rw [hd]
    rfl
  · obtain ⟨hne, hhead⟩ := head?_ofCoefficient hc e
    rw [← hd] at hne hhead
    obtain ⟨a, t, ht⟩ := List.exists_cons_of_ne_nil hne
    rw [ht] at hhead
    have hall := (isDigits_positional (hd ▸ isDigits_ofCoefficient c e)).1
    simp only [positional, ht] at hall ⊢
    split
    · rename_i hexponent
      rw [if_pos hexponent] at hall
      exact isWhole_of_head? (List.cons_ne_nil a _) hall hhead
    · rename_i hexponent
      rw [if_neg hexponent] at hall
      split
      · rename_i hplaces
        rw [if_pos hplaces] at hall
        obtain ⟨k, hk⟩ : ∃ k, (a :: t).length - (-d.exponent).toNat = k + 1 :=
          ⟨(a :: t).length - (-d.exponent).toNat - 1, by omega⟩
        rw [List.splitAt_eq, hk] at hall ⊢
        exact isWhole_of_head? (List.cons_ne_nil a _) hall hhead
      · rfl

/-! ## The parts of a number -/

/-- What stands for the sign of a number. -/
def signText (negative : Bool) : Text := if negative then ['-'] else []

theorem minus_append {t : Text} (negative : Bool) (h : t.head? ≠ some '-') :
    minus (signText negative ++ t) = (negative, t) := by
  cases negative with
  | true => rfl
  | false =>
    rw [signText, if_neg Bool.false_ne_true, List.nil_append]
    fun_cases minus t with
    | case1 t => exact absurd rfl h
    | case2 => rfl

theorem isMantissa_of_isDigit {a : Char} (h : a.isDigit = true) : isMantissa a = true := by
  rw [isMantissa, Bool.and_eq_true, bne_iff_ne, bne_iff_ne]
  exact ⟨isDigit_ne h rfl, isDigit_ne h rfl⟩

theorem exists_cons_of_isWhole {t : Text} (h : isWhole t = true) :
    IsDigits t ∧ ∃ a u, t = a :: u ∧ a.isDigit = true := by
  rw [isWhole, Bool.and_eq_true, isDigits_iff] at h
  obtain ⟨⟨hne, hdigits⟩, -⟩ := h
  obtain ⟨a, u, rfl⟩ := List.exists_cons_of_ne_nil hne
  exact ⟨hdigits, a, u, rfl, hdigits a (by simp)⟩

/-- A number is taken apart at its point and at the letter of its exponent. -/
theorem ofNumeral?_of_parts {whole fraction exponent : Text} (negative : Bool)
    (hwhole : isWhole whole = true) (hpoint : Text.Stops (· != '.') fraction)
    (hfraction : ∀ a ∈ fraction, isMantissa a = true) (hexponent : Text.Stops isMantissa exponent) :
    ofNumeral? (signText negative ++ ((whole ++ fraction) ++ exponent)) =
      ofParts? negative whole fraction exponent := by
  obtain ⟨hdigits, a, u, rfl, ha⟩ := exists_cons_of_isWhole hwhole
  have hminus := minus_append (t := (a :: u ++ fraction) ++ exponent) negative
    (by simpa using isDigit_ne ha rfl)
  have hmantissa : ∀ b ∈ a :: u ++ fraction, isMantissa b = true := by
    intro b hb
    rcases List.mem_append.1 hb with hb | hb
    · exact isMantissa_of_isDigit (hdigits b hb)
    · exact hfraction b hb
  have hbefore : ∀ b ∈ a :: u, (b != '.') = true := fun b hb =>
    bne_iff_ne.2 (isDigit_ne (hdigits b hb) rfl)
  obtain ⟨htake, hdrop⟩ := hexponent.split_append hmantissa
  obtain ⟨htake', hdrop'⟩ := hpoint.split_append hbefore
  simp only [ofNumeral?, hminus, htake, hdrop, htake', hdrop']

/-- Whether a text is a number with a given value, whatever follows it. -/
structure Spells (t : Text) (v : Json) : Prop where
  numeric : ∀ a ∈ t, isNumeric a = true
  ofNumeral?_eq : ofNumeral? t = some v

theorem Spells.readNumber_append {t rest : Text} {v : Json} (h : Spells t v)
    (hrest : Text.Stops isNumeric rest) : readNumber (t ++ rest) = some (v, rest) := by
  obtain ⟨htake, hdrop⟩ := hrest.split_append h.numeric
  rw [readNumber, htake, hdrop, h.ofNumeral?_eq]
  rfl

theorem Spells.exists_cons {t : Text} {v : Json} (h : Spells t v) :
    ∃ a u, t = a :: u ∧ isNumeric a = true := by
  cases t with
  | nil => cases h.ofNumeral?_eq
  | cons a u => exact ⟨a, u, rfl, h.numeric a (by simp)⟩

theorem isNumeric_of_isDigit {a : Char} (h : a.isDigit = true) : isNumeric a = true := by
  simp [isNumeric, h]

theorem isNumeric_signText (negative : Bool) : ∀ a ∈ signText negative, isNumeric a = true := by
  cases negative <;> simp [signText, isNumeric]

/-! ## Whole numbers -/

theorem spells_signed (n : Int) : Spells (signed false n) (.int n) := by
  obtain ⟨negative, hnegative⟩ : ∃ b : Bool, b = decide (n < 0) := ⟨_, rfl⟩
  have htext : signed false n =
      signText negative ++ ((Nat.toDigits 10 n.natAbs ++ []) ++ []) := by
    rw [List.append_nil, List.append_nil, hnegative]
    by_cases hn : n < 0 <;> simp [signed, signText, hn]
  have hvalue : (if negative then -(digitsValue (Nat.toDigits 10 n.natAbs) : Int)
      else digitsValue (Nat.toDigits 10 n.natAbs)) = n := by
    rw [digitsValue_toDigits, hnegative]
    by_cases hn : n < 0
    · rw [if_pos (decide_eq_true hn)]
      omega
    · rw [if_neg (by simpa using hn)]
      omega
  rw [htext]
  refine ⟨?_, ?_⟩
  · intro a ha
    rw [List.append_nil, List.append_nil] at ha
    rcases List.mem_append.1 ha with ha | ha
    · exact isNumeric_signText negative a ha
    · exact isNumeric_of_isDigit (isDigits_toDigits _ a ha)
  · rw [ofNumeral?_of_parts negative (isWhole_toDigits _) Text.stops_nil
      (fun a ha => absurd ha List.not_mem_nil) Text.stops_nil, ofParts?, isWhole_toDigits]
    show some (Json.int _) = _
    rw [hvalue]

/-! ## Binary numbers -/

/-- The shortest decimal is worth the magnitude it was chosen for. -/
theorem nearest_digits (tie : Tie) {m : Nat} (h : m < infiniteMagnitude)
    (hd : d = shortest tie m) :
    nearest (digitsValue d.digits * Nat.pow 10 d.exponent.toNat * unity)
      (Nat.pow 10 (-d.exponent).toNat) = m := by
  have hreads := of_decide_eq_true (readsBack_scaled tie h)
  -- a variable, so that no step computes the power of ten
  obtain ⟨k, hk⟩ : ∃ k : Nat, k = 1074 := ⟨1074, rfl⟩
  have hvalue : digitsValue d.digits * Nat.pow 10 (d.exponent.toNat + k) =
      (scaled tie m).1 * Nat.pow 10 ((scaled tie m).2 + (-d.exponent).toNat) := by
    subst hd
    refine digitsValue_ofCoefficient ?_
    show _ + (shortest tie m).exponent = _
    omega
  rw [← hreads]
  refine nearest_congr (ten_pow_pos _) fineness_pos ?_
  rw [Nat.mul_assoc, unity_mul_fineness hk, Nat.mul_assoc, ← ten_pow_add, hvalue, ten_pow_add,
    Nat.mul_assoc]

theorem ofUnits_shortest {x : Binary64} (hx : x.isFinite = true) (tie : Tie)
    (hd : d = shortest tie x.magnitude) :
    ofUnits x.negative (digitsValue d.digits) d.exponent = x := by
  rw [ofUnits, ofQuotient, nearest_digits tie (of_decide_eq_true hx) hd,
    ofParts_negative_magnitude]

theorem ofUnits_fraction (negative : Bool) (units places : Nat) :
    ofUnits negative units (0 - places) = ofQuotient negative units (Nat.pow 10 places) := by
  have hpower : ((0 : Int) - places).toNat = 0 := by omega
  have hplaces : (-((0 : Int) - places)).toNat = places := by omega
  rw [ofUnits, hpower, hplaces]
  congr 1
  exact Nat.mul_one units

/-! ## Fractions and exponents -/

/-- Whether a text is a fraction with given digits, or no fraction. -/
def IsFraction (fraction digits : Text) : Prop :=
  (fraction = [] ∧ digits = []) ∨ (fraction = '.' :: digits ∧ digits ≠ [] ∧ IsDigits digits)

/-- Whether a text is an exponent of given value, or no exponent. -/
def IsExponent (exponent : Text) (power : Int) : Prop :=
  (exponent = [] ∧ power = 0) ∨ exponent = 'e' :: signed true power

section

variable {whole fraction digits exponent : Text} {power : Int}

theorem IsFraction.stops (h : IsFraction fraction digits) :
    Text.Stops (· != '.') fraction := by
  rcases h with ⟨rfl, -⟩ | ⟨rfl, -, -⟩
  · exact Text.stops_nil
  · exact Text.stops_cons.2 rfl

theorem IsFraction.forall_mem {p : Char → Bool} (h : IsFraction fraction digits)
    (hpoint : p '.' = true) (hdigit : ∀ a, a.isDigit = true → p a = true) :
    ∀ a ∈ fraction, p a = true := by
  rcases h with ⟨rfl, -⟩ | ⟨rfl, -, hdigits⟩
  · exact fun a ha => absurd ha List.not_mem_nil
  · exact List.forall_mem_cons.2 ⟨hpoint, fun a ha => hdigit a (hdigits a ha)⟩

theorem IsFraction.fractionDigits?_eq (h : IsFraction fraction digits) :
    fractionDigits? fraction = some digits := by
  rcases h with ⟨rfl, rfl⟩ | ⟨rfl, hne, hdigits⟩
  · rfl
  · rw [fractionDigits?, if_pos (isDigits_iff.2 ⟨hne, hdigits⟩)]

theorem IsExponent.stops (h : IsExponent exponent power) : Text.Stops isMantissa exponent := by
  rcases h with ⟨rfl, -⟩ | rfl
  · exact Text.stops_nil
  · exact Text.stops_cons.2 rfl

theorem isNumeric_signed (plus : Bool) (n : Int) : ∀ a ∈ signed plus n, isNumeric a = true := by
  have hdigits : ∀ a ∈ Nat.toDigits 10 n.natAbs, isNumeric a = true := fun a ha =>
    isNumeric_of_isDigit (isDigits_toDigits _ a ha)
  rw [signed]
  split
  · exact List.forall_mem_cons.2 ⟨rfl, hdigits⟩
  · split
    · exact List.forall_mem_cons.2 ⟨rfl, hdigits⟩
    · exact hdigits

theorem IsExponent.isNumeric (h : IsExponent exponent power) :
    ∀ a ∈ exponent, isNumeric a = true := by
  rcases h with ⟨rfl, -⟩ | rfl
  · exact fun a ha => absurd ha List.not_mem_nil
  · exact List.forall_mem_cons.2 ⟨rfl, isNumeric_signed true power⟩

theorem IsExponent.exponentValue?_eq (h : IsExponent exponent power) :
    exponentValue? exponent = some power := by
  rcases h with ⟨rfl, rfl⟩ | rfl
  · rfl
  · have hdigits : isDigits (Nat.toDigits 10 power.natAbs) = true :=
      isDigits_iff.2 ⟨Nat.toDigits_ne_nil, isDigits_toDigits _⟩
    rw [signed]
    split
    · rw [exponentValue?, if_pos hdigits, digitsValue_toDigits]
      congr 1
      omega
    · rw [if_pos rfl, exponentValue?, if_pos hdigits, digitsValue_toDigits]
      congr 1
      omega

/-- A whole part with a fraction or an exponent spells the number it is worth. -/
theorem spells_of_parts {negative : Bool} {x : Binary64} (hwhole : isWhole whole = true)
    (hfraction : IsFraction fraction digits) (hexponent : IsExponent exponent power)
    (hpart : (fraction.isEmpty && exponent.isEmpty) = false) (hx : x.isFinite = true)
    (hvalue : ofUnits negative (digitsValue (whole ++ digits)) (power - digits.length) = x) :
    Spells (signText negative ++ ((whole ++ fraction) ++ exponent)) (.float x) := by
  refine ⟨?_, ?_⟩
  · intro a ha
    simp only [List.mem_append] at ha
    rcases ha with ha | (ha | ha) | ha
    · exact isNumeric_signText negative a ha
    · exact isNumeric_of_isDigit ((exists_cons_of_isWhole hwhole).1 a ha)
    · exact hfraction.forall_mem rfl (fun _ => isNumeric_of_isDigit) a ha
    · exact hexponent.isNumeric a ha
  · rw [ofNumeral?_of_parts negative hwhole hfraction.stops
      (hfraction.forall_mem rfl fun _ => isMantissa_of_isDigit) hexponent.stops, ofParts?, hwhole,
      hpart, hfraction.fractionDigits?_eq, hexponent.exponentValue?_eq]
    simp only [Bool.not_true, Bool.false_eq_true, if_false, Option.bind_eq_bind, Option.bind_some,
      hvalue, hx, if_true]

end

/-! ## The two forms of a binary number -/

theorem joined_pointed (whole fraction : Text) :
    joined true whole fraction = whole ++ '.' :: filled fraction := by
  cases fraction with
  | nil => rfl
  | cons a t => rw [joined, filled, if_neg (List.cons_ne_nil a t)]

theorem spells_positional {x : Binary64} (hx : x.isFinite = true)
    (hd : d = shortest .even x.magnitude) :
    Spells (signText x.negative ++ joined true d.positional.1 d.positional.2) (.float x) := by
  have hdigits : IsDigits d.digits := by
    rw [hd]
    exact isDigits_ofCoefficient _ _
  have hfraction : IsFraction ('.' :: filled d.positional.2) (filled d.positional.2) :=
    Or.inr ⟨rfl, filled_ne_nil _, isDigits_filled (isDigits_positional hdigits).2⟩
  have hvalue : ofUnits x.negative (digitsValue (d.positional.1 ++ filled d.positional.2))
      (0 - (filled d.positional.2).length) = x := by
    rw [ofUnits_fraction, ofQuotient, nearest_positional .even (of_decide_eq_true hx) hd,
      ofParts_negative_magnitude]
  have hspells := spells_of_parts (isWhole_positional hd) hfraction (Or.inl ⟨rfl, rfl⟩) rfl hx
    hvalue
  rwa [List.append_nil, ← joined_pointed] at hspells

/-- One digit, the others behind the point if there are any, and the power of ten of the first
digit. -/
theorem spells_scientific {x : Binary64} (hx : x.isFinite = true)
    (hd : d = shortest .even x.magnitude) :
    Spells (signText x.negative ++ (joined false (d.digits.take 1) (d.digits.drop 1) ++
      'e' :: signed true d.order)) (.float x) := by
  have hdigits : IsDigits d.digits := by
    rw [hd]
    exact isDigits_ofCoefficient _ _
  have hvalue := ofUnits_shortest hx .even hd
  obtain ⟨a, t, ht⟩ : ∃ a t, d.digits = a :: t :=
    List.exists_cons_of_ne_nil (hd ▸ ofCoefficient_ne_nil _ _)
  have hpower : d.order - t.length = d.exponent := by
    rw [order, ht, List.length_cons]
    omega
  rw [ht] at hdigits hvalue ⊢
  rw [← hpower] at hvalue
  have hwhole : isWhole [a] = true := isWhole_singleton (hdigits a (by simp))
  cases t with
  | nil => exact spells_of_parts hwhole (Or.inl ⟨rfl, rfl⟩) (Or.inr rfl) rfl hx hvalue
  | cons b t =>
    have hfraction : IsFraction ('.' :: b :: t) (b :: t) :=
      Or.inr ⟨rfl, List.cons_ne_nil b t, fun c hc => hdigits c (List.mem_cons_of_mem a hc)⟩
    exact spells_of_parts hwhole hfraction (Or.inr rfl) rfl hx hvalue

theorem decimal_floatNotation (d : Decimal) :
    floatNotation.decimal d = joined true d.positional.1 d.positional.2 ∨
      floatNotation.decimal d =
        joined false (d.digits.take 1) (d.digits.drop 1) ++ 'e' :: signed true d.order := by
  rw [Notation.decimal]
  split
  · exact Or.inl rfl
  · exact Or.inr rfl

/-- A finite number is read as itself. -/
theorem spells_floatText {x : Binary64} (hx : x.isFinite = true) :
    Spells (floatText x) (.float x) := by
  obtain ⟨d, hd⟩ : ∃ d, d = shortest .even x.magnitude := ⟨_, rfl⟩
  have hwrite : floatText x = signText x.negative ++ floatNotation.decimal d := by
    rw [floatText, if_pos hx, Token.write_of_isFinite floatNotation hx, hd]
    rfl
  rw [hwrite]
  rcases decimal_floatNotation d with h | h
  · rw [h]
    exact spells_positional hx hd
  · rw [h]
    exact spells_scientific hx hd

end Json

end Lexicon
