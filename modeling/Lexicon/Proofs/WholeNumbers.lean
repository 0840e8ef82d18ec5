import Mathlib.Data.List.Induction
import Mathlib.Data.Nat.Digits.Defs
import Lexicon.Proofs.Numerals

/-!
# Whole numbers are exact

A whole number is a sign or none, a run of digits that is as long as it can be, and a boundary
or the end of the text.  No text has such parts in two ways (`IntParts.unique`), and the rule for
whole numbers declines the texts that do not have them.

What the parts denote is an integer of any size, and zeros in front do not count
(`decimalValue`).  It is read exactly when it has at most 64 bits with the sign, and it is out
of range otherwise, whatever the number of digits (`readsWhole`).

The rule takes the digits from the first to the last and multiplies by ten before each of them.
This is the value by places (`digitsValue_eq`).
-/

namespace Lexicon.Lexeme

open Text

variable {sign digits rest text : Text}

/-! ## Values -/

/-- The number that decimal digits denote.  The last one counts for itself, and each other one
for ten times as much as it would in the next place. -/
def decimalValue (digits : Text) : Nat :=
  Nat.ofDigits 10 (digits.reverse.map fun c => c.toNat - '0'.toNat)

/-- The integer that a sign and digits denote. -/
def denoted (sign digits : Text) : Int :=
  if sign = ['-'] then -(decimalValue digits : Int) else decimalValue digits

theorem decimalValue_concat (digits : Text) (c : Char) :
    decimalValue (digits ++ [c]) = 10 * decimalValue digits + (c.toNat - '0'.toNat) := by
  rw [decimalValue, List.reverse_append, List.reverse_singleton, List.singleton_append,
    List.map_cons, Nat.ofDigits_cons, Nat.add_comm]
  rfl

/-- Taking the digits from the first to the last gives the value by places. -/
theorem digitsValue_eq (digits : Text) : digitsValue digits = decimalValue digits := by
  induction digits using List.reverseRecOn with
  | nil => rfl
  | append_singleton digits c ih =>
    rw [decimalValue_concat, ← ih, digitsValue, Nat.ofDigitChars_append]
    rfl

theorem intValue_eq (sign digits : Text) : intValue sign digits = denoted sign digits := by
  rw [intValue, denoted, digitsValue_eq]
  simp only [beq_iff_eq]

/-! ## Parts -/

/-- The parts of a whole number are determined by the text. -/
theorem IntParts.unique {sign' digits' rest' : Text} (h : IntParts sign digits rest)
    (h' : IntParts sign' digits' rest')
    (htext : sign ++ (digits ++ rest) = sign' ++ (digits' ++ rest')) :
    sign = sign' ∧ digits = digits' ∧ rest = rest' := by
  have hsplit := h.splitSign_eq
  rw [htext, h'.splitSign_eq] at hsplit
  obtain ⟨rfl, hunsigned⟩ := Prod.mk.inj hsplit
  obtain ⟨htake, hdrop⟩ := (stops_isDigit_of_atBoundary h.atBoundary).split_append h.isDigits
  obtain ⟨htake', hdrop'⟩ :=
    (stops_isDigit_of_atBoundary h'.atBoundary).split_append h'.isDigits
  rw [← hunsigned, htake'] at htake
  rw [← hunsigned, hdrop'] at hdrop
  exact ⟨rfl, htake.symm, hdrop.symm⟩

/-! ## Reading -/

/-- How the rule for whole numbers reads a text. -/
structure ReadsWhole (text : Text) : Prop where
  /-- A text has the parts of a whole number in one way at most. -/
  unique : ∀ sign digits rest sign' digits' rest', IntParts sign digits rest →
    IntParts sign' digits' rest' → text = sign ++ (digits ++ rest) →
    text = sign' ++ (digits' ++ rest') → sign = sign' ∧ digits = digits' ∧ rest = rest'
  /-- A text without such parts is declined. -/
  declines : (∀ sign digits rest, IntParts sign digits rest → text ≠ sign ++ (digits ++ rest)) →
    int text = none
  /-- A number that fits 64 bits is read exactly, and what comes behind the digits is left. -/
  reads : ∀ sign digits rest, IntParts sign digits rest → text = sign ++ (digits ++ rest) →
    -2 ^ 63 ≤ denoted sign digits → denoted sign digits ≤ 2 ^ 63 - 1 →
    ∃ n : Int64, n.toInt = denoted sign digits ∧ int text = some (.token (.int n) rest)
  /-- Any other number is out of range, and the fault repeats the sign and the digits. -/
  fails : ∀ sign digits rest, IntParts sign digits rest → text = sign ++ (digits ++ rest) →
    denoted sign digits < -2 ^ 63 ∨ 2 ^ 63 - 1 < denoted sign digits →
    int text = some (.fault (.outOfRange (sign ++ digits)))

/-- Whole numbers are read exactly, or not at all. -/
theorem readsWhole (text : Text) : ReadsWhole text := by
  constructor
  case unique =>
    rintro sign digits rest sign' digits' rest' parts parts' rfl htext
    exact parts.unique parts' htext
  case declines =>
    intro hnone
    cases hint : int text with
    | none => rfl
    | some reading =>
      obtain ⟨sign, digits, rest, parts, htext, -⟩ := exists_parts_of_int hint
      exact absurd htext (hnone sign digits rest parts)
  case reads =>
    rintro sign digits rest parts rfl hlower hupper
    have hfits : fits (intValue sign digits) = true := by
      rw [intValue_eq]
      exact fits_iff.2 ⟨hlower, hupper⟩
    refine ⟨Int64.ofInt (intValue sign digits), ?_, ?_⟩
    · rw [intValue_eq]
      exact Int64.toInt_ofInt_of_le hlower (Int.lt_of_le_sub_one hupper)
    · rw [int_of_parts parts, intReading_eq_token_iff.2 ⟨hfits, rfl, rfl⟩]
  case fails =>
    rintro sign digits rest parts rfl hlarge
    have hfits : fits (intValue sign digits) = false := by
      rw [intValue_eq]
      exact fits_eq_false_iff.2 hlarge
    rw [int_of_parts parts, intReading_eq_fault_iff.2 ⟨hfits, rfl⟩]

/-- Zeros in front and the sign belong to the literal, and the bounds are not the same on both
sides. -/
example : int "-009223372036854775808".toList = some (.token (.int Int64.minValue) []) ∧
    int "+9223372036854775808".toList =
      some (.fault (.outOfRange "+9223372036854775808".toList)) := ⟨rfl, rfl⟩

end Lexicon.Lexeme
