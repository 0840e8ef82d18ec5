import Lexicon.Lexeme.Numeral
import Lexicon.Proofs.Blanks

/-!
# The parts of numbers

A number with a point has four parts, a sign, the digits before the point, those
after it, and the rest of the text.  A whole number has three.  `FloatParts` and
`IntParts` say what the parts have to be.  The rules of reading find exactly the
texts made of such parts (`float_of_parts`, `exists_parts_of_float`, and the same
for `int`), so a reading of a number is the same as a choice of parts.
-/

namespace Lexicon.Lexeme

open Text

variable {sign whole fraction digits rest text : Text}

/-! ## Signs and digits -/

/-- Whether a text is a sign or nothing. -/
def IsSign (t : Text) : Prop := t = [] ∨ t = ['+'] ∨ t = ['-']

/-- Whether a text has decimal digits only. -/
def IsDigits (t : Text) : Prop := ∀ c ∈ t, c.isDigit = true

/-- Whether a text does not start with a sign. -/
def IsUnsigned (t : Text) : Prop := ∀ c ∈ t.head?, c ≠ '+' ∧ c ≠ '-'

theorem isDigit_ne {c d : Char} (hc : c.isDigit = true) (hd : d.isDigit = false) : c ≠ d := by
  rintro rfl
  rw [hc] at hd
  exact Bool.noConfusion hd

theorem isUnsigned_cons_of_isDigit {c : Char} (hc : c.isDigit = true) (t : Text) :
    IsUnsigned (c :: t) := by
  intro d hd
  obtain rfl : c = d := by simpa using hd
  exact ⟨isDigit_ne hc rfl, isDigit_ne hc rfl⟩

theorem IsDigits.isUnsigned_append (h : IsDigits digits) (hrest : IsUnsigned rest) :
    IsUnsigned (digits ++ rest) := by
  cases digits with
  | nil => exact hrest
  | cons c digits => exact isUnsigned_cons_of_isDigit (h c (by simp)) _

theorem isSign_splitSign (t : Text) : IsSign (splitSign t).1 := by
  fun_cases splitSign t with
  | case1 => exact Or.inr (Or.inl rfl)
  | case2 => exact Or.inr (Or.inr rfl)
  | case3 => exact Or.inl rfl

theorem splitSign_of_isUnsigned (h : IsUnsigned text) : splitSign text = ([], text) := by
  fun_cases splitSign text with
  | case1 t => exact absurd rfl (h '+' rfl).1
  | case2 t => exact absurd rfl (h '-' rfl).2
  | case3 => rfl

theorem IsSign.splitSign_eq (hs : IsSign sign) (h : IsUnsigned text) :
    splitSign (sign ++ text) = (sign, text) := by
  rcases hs with rfl | rfl | rfl
  · exact splitSign_of_isUnsigned h
  · rfl
  · rfl

/-! ## Numbers with a point -/

/-- What the parts of a number with a point have to be. -/
structure FloatParts (sign whole fraction rest : Text) : Prop where
  isSign : IsSign sign
  isDigits_whole : IsDigits whole
  isDigits_fraction : IsDigits fraction
  fraction_ne_nil : fraction ≠ []
  atBoundary : rest.atBoundary = true

/-- The reading of a number with a point. -/
def floatReading (sign whole fraction rest : Text) : Reading :=
  if (floatValue sign whole fraction).isFinite then
    .token (.float (floatValue sign whole fraction)) rest
  else .fault (.outOfRange (sign ++ whole ++ '.' :: fraction))

theorem floatReading_eq_token_iff {k : Token Text} {r : Text} :
    floatReading sign whole fraction rest = .token k r ↔
      (floatValue sign whole fraction).isFinite = true ∧
        k = .float (floatValue sign whole fraction) ∧ r = rest := by
  rw [floatReading]
  split
  · rename_i hfinite
    simp [hfinite, eq_comm]
  · rename_i hfinite
    simp [hfinite]

theorem floatReading_eq_fault_iff {cause : Fault} :
    floatReading sign whole fraction rest = .fault cause ↔
      (floatValue sign whole fraction).isFinite = false ∧
        cause = .outOfRange (sign ++ whole ++ '.' :: fraction) := by
  rw [floatReading]
  split
  · rename_i hfinite
    simp [hfinite]
  · rename_i hfinite
    simp [hfinite, eq_comm]

theorem FloatParts.splitSign_eq (h : FloatParts sign whole fraction rest) :
    splitSign (sign ++ (whole ++ '.' :: (fraction ++ rest))) =
      (sign, whole ++ '.' :: (fraction ++ rest)) := by
  have hpoint : IsUnsigned ('.' :: (fraction ++ rest)) := by
    intro c hc
    obtain rfl : '.' = c := by simpa using hc
    decide
  exact h.isSign.splitSign_eq (h.isDigits_whole.isUnsigned_append hpoint)

theorem float_of_parts (h : FloatParts sign whole fraction rest) :
    float (sign ++ (whole ++ '.' :: (fraction ++ rest))) =
      some (floatReading sign whole fraction rest) := by
  have hsign := h.splitSign_eq
  have hstops : Stops Char.isDigit ('.' :: (fraction ++ rest)) := stops_cons.2 rfl
  have hstops' := stops_isDigit_of_atBoundary h.atBoundary
  obtain ⟨htake, hdrop⟩ := hstops.split_append h.isDigits_whole
  obtain ⟨htake', hdrop'⟩ := hstops'.split_append h.isDigits_fraction
  have hne : fraction.isEmpty = false := by simpa using h.fraction_ne_nil
  simp only [float, hsign, htake, hdrop, htake', hdrop', hne, h.atBoundary, Bool.not_true,
    Bool.or_self, Bool.false_eq_true, if_false, floatReading]
  split <;> rfl

theorem exists_parts_of_float {r : Reading} (h : float text = some r) :
    ∃ sign whole fraction rest, FloatParts sign whole fraction rest ∧
      text = sign ++ (whole ++ '.' :: (fraction ++ rest)) ∧
      r = floatReading sign whole fraction rest := by
  have hsign := splitSign_append text
  simp only [float] at h
  split at h
  · rename_i after hafter
    split at h
    · cases h
    · rename_i hparts
      simp only [Bool.or_eq_true, List.isEmpty_iff, Bool.not_eq_true', not_or,
        Bool.not_eq_false] at hparts
      have hwhole := List.takeWhile_append_dropWhile (p := Char.isDigit) (l := (splitSign text).2)
      have hfraction := List.takeWhile_append_dropWhile (p := Char.isDigit) (l := after)
      refine ⟨(splitSign text).1, (splitSign text).2.takeWhile Char.isDigit,
        after.takeWhile Char.isDigit, after.dropWhile Char.isDigit,
        ⟨isSign_splitSign text, forall_mem_takeWhile _ _, forall_mem_takeWhile _ _, hparts.1,
          hparts.2⟩, ?_, ?_⟩
      · rw [hfraction, ← hafter, hwhole, hsign]
      · rw [floatReading]
        split at h
        · rename_i hfinite
          rw [if_pos hfinite]
          exact (Option.some.inj h).symm
        · rename_i hfinite
          rw [if_neg hfinite]
          exact (Option.some.inj h).symm
  · cases h

/-- The parts of a number with a point that is read. -/
theorem exists_parts_of_float_token {k : Token Text} (h : float text = some (.token k rest)) :
    ∃ sign whole fraction, FloatParts sign whole fraction rest ∧
      text = sign ++ (whole ++ '.' :: (fraction ++ rest)) ∧
      (floatValue sign whole fraction).isFinite = true ∧
      k = .float (floatValue sign whole fraction) := by
  obtain ⟨sign, whole, fraction, after, parts, htext, hr⟩ := exists_parts_of_float h
  obtain ⟨hfinite, hk, rfl⟩ := floatReading_eq_token_iff.1 hr.symm
  exact ⟨sign, whole, fraction, parts, htext, hfinite, hk⟩

/-- A number with a point has its point. -/
theorem float_eq_none_of_not_mem (h : '.' ∉ text) : float text = none := by
  cases hfloat : float text with
  | none => rfl
  | some r =>
    obtain ⟨sign, whole, fraction, rest, -, rfl, -⟩ := exists_parts_of_float hfloat
    exact absurd (by simp) h

/-! ## Whole numbers -/

/-- What the parts of a whole number have to be. -/
structure IntParts (sign digits rest : Text) : Prop where
  isSign : IsSign sign
  isDigits : IsDigits digits
  ne_nil : digits ≠ []
  atBoundary : rest.atBoundary = true

/-- The whole numbers that fit are those of 64 bits with a sign. -/
theorem fits_iff {n : Int} :
    fits n = true ↔ -9223372036854775808 ≤ n ∧ n ≤ 9223372036854775807 := by
  rw [fits, decide_eq_true_iff]
  rfl

theorem fits_eq_false_iff {n : Int} :
    fits n = false ↔ n < -9223372036854775808 ∨ 9223372036854775807 < n := by
  rw [fits, decide_eq_false_iff_not, Classical.not_and_iff_not_or_not, Int.not_le, Int.not_le]
  rfl

/-- The reading of a whole number. -/
def intReading (sign digits rest : Text) : Reading :=
  if fits (intValue sign digits) then .token (.int (Int64.ofInt (intValue sign digits))) rest
  else .fault (.outOfRange (sign ++ digits))

theorem intReading_eq_token_iff {k : Token Text} {r : Text} :
    intReading sign digits rest = .token k r ↔
      fits (intValue sign digits) = true ∧
        k = .int (Int64.ofInt (intValue sign digits)) ∧ r = rest := by
  rw [intReading]
  split
  · rename_i hfits
    simp [hfits, eq_comm]
  · rename_i hfits
    simp [hfits]

theorem intReading_eq_fault_iff {cause : Fault} :
    intReading sign digits rest = .fault cause ↔
      fits (intValue sign digits) = false ∧ cause = .outOfRange (sign ++ digits) := by
  rw [intReading]
  split
  · rename_i hfits
    simp [hfits]
  · rename_i hfits
    simp [hfits, eq_comm]

theorem IntParts.splitSign_eq (h : IntParts sign digits rest) :
    splitSign (sign ++ (digits ++ rest)) = (sign, digits ++ rest) := by
  obtain ⟨c, u, rfl⟩ := List.exists_cons_of_ne_nil h.ne_nil
  exact h.isSign.splitSign_eq (isUnsigned_cons_of_isDigit (h.isDigits c (by simp)) _)

theorem int_of_parts (h : IntParts sign digits rest) :
    int (sign ++ (digits ++ rest)) = some (intReading sign digits rest) := by
  have hsign := h.splitSign_eq
  obtain ⟨htake, hdrop⟩ := (stops_isDigit_of_atBoundary h.atBoundary).split_append h.isDigits
  have hne : digits.isEmpty = false := by simpa using h.ne_nil
  simp only [int, hsign, htake, hdrop, hne, h.atBoundary, Bool.not_true, Bool.or_self,
    Bool.false_eq_true, if_false, intReading]
  split <;> rfl

theorem exists_parts_of_int {r : Reading} (h : int text = some r) :
    ∃ sign digits rest, IntParts sign digits rest ∧ text = sign ++ (digits ++ rest) ∧
      r = intReading sign digits rest := by
  have hsign := splitSign_append text
  simp only [int] at h
  split at h
  · cases h
  · rename_i hparts
    simp only [Bool.or_eq_true, List.isEmpty_iff, Bool.not_eq_true', not_or,
      Bool.not_eq_false] at hparts
    refine ⟨(splitSign text).1, (splitSign text).2.takeWhile Char.isDigit,
      (splitSign text).2.dropWhile Char.isDigit,
      ⟨isSign_splitSign text, forall_mem_takeWhile _ _, hparts.1, hparts.2⟩, ?_, ?_⟩
    · rw [List.takeWhile_append_dropWhile, hsign]
    · rw [intReading]
      split at h
      · rename_i hfits
        rw [if_pos hfits]
        exact (Option.some.inj h).symm
      · rename_i hfits
        rw [if_neg hfits]
        exact (Option.some.inj h).symm

/-- The parts of a whole number that is read. -/
theorem exists_parts_of_int_token {k : Token Text} (h : int text = some (.token k rest)) :
    ∃ sign digits, IntParts sign digits rest ∧ text = sign ++ (digits ++ rest) ∧
      fits (intValue sign digits) = true ∧ k = .int (Int64.ofInt (intValue sign digits)) := by
  obtain ⟨sign, digits, after, parts, htext, hr⟩ := exists_parts_of_int h
  obtain ⟨hfits, hk, rfl⟩ := intReading_eq_token_iff.1 hr.symm
  exact ⟨sign, digits, parts, htext, hfits, hk⟩

end Lexicon.Lexeme
