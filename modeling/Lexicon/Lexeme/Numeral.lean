import Lexicon.Lexeme.Reading

/-!
# Numbers

A number is an optional sign and a run of decimal digits, or an optional sign, a
possibly empty run of digits, a point and a run of digits.  A boundary must
follow.  The runs are the longest possible ones.

A whole number is exact and must fit 64 bits.  A number with a point stands for
the binary number nearest to its decimal value, and must not be so large that
this is infinite.  One that is too small for the format stands for zero, with
its sign kept.
-/

namespace Lexicon.Lexeme

/-- The sign a text starts with, possibly none, and what follows it. -/
def splitSign : Text → Text × Text
  | '+' :: t => (['+'], t)
  | '-' :: t => (['-'], t)
  | t => ([], t)

/-- The value of a run of decimal digits. -/
def digitsValue (digits : Text) : Nat := Nat.ofDigitChars 10 digits 0

/-- The binary number for a sign, the digits before and those after a point. -/
def floatValue (sign whole fraction : Text) : Binary64 :=
  Binary64.ofQuotient (sign == ['-']) (digitsValue (whole ++ fraction)) (Nat.pow 10 fraction.length)

/-- The whole number for a sign and digits. -/
def intValue (sign digits : Text) : Int :=
  if sign == ['-'] then -(digitsValue digits : Int) else digitsValue digits

/-- Whether a whole number fits 64 bits. -/
def fits (n : Int) : Bool :=
  decide (Int64.minValue.toInt ≤ n ∧ n ≤ Int64.maxValue.toInt)

/-- Reads a number with a point. -/
def float : Rule := fun text =>
  let (sign, unsigned) := splitSign text
  let whole := unsigned.takeWhile Char.isDigit
  match unsigned.dropWhile Char.isDigit with
  | '.' :: tail =>
    let fraction := tail.takeWhile Char.isDigit
    let rest := tail.dropWhile Char.isDigit
    if fraction.isEmpty || !Text.atBoundary rest then none
    else
      let value := floatValue sign whole fraction
      if value.isFinite then some (.token (.float value) rest)
      else some (.fault (.outOfRange (sign ++ whole ++ '.' :: fraction)))
  | _ => none

/-- Reads a whole number. -/
def int : Rule := fun text =>
  let (sign, unsigned) := splitSign text
  let digits := unsigned.takeWhile Char.isDigit
  let rest := unsigned.dropWhile Char.isDigit
  if digits.isEmpty || !Text.atBoundary rest then none
  else
    let value := intValue sign digits
    if fits value then some (.token (.int (Int64.ofInt value)) rest)
    else some (.fault (.outOfRange (sign ++ digits)))

/-! ## Progress -/

theorem splitSign_append (t : Text) : (splitSign t).1 ++ (splitSign t).2 = t := by
  unfold splitSign
  split <;> rfl

theorem float_progresses : Rule.Progresses float := by
  intro text reading h
  have hsign := splitSign_append text
  simp only [float] at h
  split at h
  · rename_i tail htail
    split at h
    · simp at h
    · have hrest : tail.dropWhile Char.isDigit <:+ tail := List.dropWhile_suffix _
      have hun : '.' :: tail <:+ (splitSign text).2 := htail ▸ List.dropWhile_suffix _
      have hs : tail.dropWhile Char.isDigit <:+ text :=
        hrest.trans ((List.suffix_cons '.' tail).trans
          (hun.trans ⟨(splitSign text).1, hsign⟩))
      have hl : (tail.dropWhile Char.isDigit).length < text.length := by
        have h1 := hrest.length_le
        have h2 := hun.length_le
        have h3 := congrArg List.length hsign
        simp only [List.length_append, List.length_cons] at h2 h3
        omega
      split at h
      · exact Option.some.inj h ▸ Reading.consumes_token _ hs hl
      · exact Option.some.inj h ▸ Reading.consumes_fault _ _
  · simp at h

theorem int_progresses : Rule.Progresses int := by
  intro text reading h
  have hsign := splitSign_append text
  simp only [int] at h
  split at h
  · simp at h
  · rename_i hne
    generalize (splitSign text).1 = sign at *
    generalize (splitSign text).2 = unsigned at *
    have hsplit : unsigned.takeWhile Char.isDigit ++ unsigned.dropWhile Char.isDigit = unsigned :=
      List.takeWhile_append_dropWhile
    have hs : unsigned.dropWhile Char.isDigit <:+ text :=
      (List.dropWhile_suffix _).trans ⟨sign, hsign⟩
    have hl : (unsigned.dropWhile Char.isDigit).length < text.length := by
      have h1 := congrArg List.length hsplit
      have h2 := congrArg List.length hsign
      have h3 : unsigned.takeWhile Char.isDigit ≠ [] := by
        intro hnil
        simp [hnil] at hne
      have h4 := List.length_pos_iff.2 h3
      simp only [List.length_append] at h1 h2
      omega
    split at h
    · exact Option.some.inj h ▸ Reading.consumes_token _ hs hl
    · exact Option.some.inj h ▸ Reading.consumes_fault _ _

end Lexicon.Lexeme
