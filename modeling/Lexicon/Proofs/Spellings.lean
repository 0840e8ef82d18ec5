import Lexicon.Proofs.Digits
import Lexicon.Proofs.Lexemes
import Lexicon.Token.Spelling

/-!
# The spellings of tokens are lexemes

A token that can be read from some text can be read from its own spelling
(`IsLexeme.spelling`).  Names are their own lexemes.  For the other tokens the
spelling may differ from the lexeme it came from, and is shown to be another one.

A spelling never opens or closes a block comment unless it is a name
(`closings_spelling`, `eq_name_of_opens`).  In a literal this is the work of the
escape for a slash after a star.
-/

namespace Lexicon

open Lexeme

variable {token : Token Text} {lexeme : Text} {x : Binary64}

namespace Token

/-! ## Numbers with a point -/

/-- The sign of a number that is written. -/
def floatSign (x : Binary64) : Text := if x.negative then ['-'] else []

theorem isSign_floatSign (x : Binary64) : IsSign (floatSign x) := by
  unfold floatSign
  split
  · exact Or.inr (Or.inr rfl)
  · exact Or.inl rfl

theorem floatSign_beq (x : Binary64) : (floatSign x == ['-']) = x.negative := by
  unfold floatSign
  cases x.negative <;> rfl

theorem not_mem_of_isSign {sign : Text} {c : Char} (h : IsSign sign) (hplus : c ≠ '+')
    (hminus : c ≠ '-') : c ∉ sign := by
  rcases h with rfl | rfl | rfl
  · exact List.not_mem_nil
  · simpa using hplus
  · simpa using hminus

theorem not_mem_of_isDigits {digits : Text} {c : Char} (h : IsDigits digits)
    (hc : c.isDigit = false) : c ∉ digits := fun hmem => isDigit_ne (h c hmem) hc rfl

theorem decimal_plainNotation (d : Decimal) :
    plainNotation.decimal d = Decimal.joined false d.positional.1 d.positional.2 := rfl

theorem isNaN_of_isFinite (hx : x.isFinite = true) : x.isNaN = false :=
  decide_eq_false (Nat.not_lt.2 (Nat.le_of_lt (of_decide_eq_true hx)))

theorem write_of_isFinite (f : Notation) (hx : x.isFinite = true) :
    f.write x = floatSign x ++ f.decimal (Decimal.shortest f.tie x.magnitude) := by
  rw [Notation.write, isNaN_of_isFinite hx, hx, floatSign]
  simp only [Bool.false_eq_true, if_false, if_true]

theorem write_plainNotation (hx : x.isFinite = true) :
    plainNotation.write x =
      floatSign x ++ plainNotation.decimal (Decimal.shortest .away x.magnitude) :=
  write_of_isFinite plainNotation hx

/-- A number is written with its sign, and its point is always shown. -/
theorem floatSpelling_of_write {sign : Text} {d : Decimal} (hsign : IsSign sign)
    (hd : IsDigits d.digits) (hx : plainNotation.write x = sign ++ plainNotation.decimal d) :
    floatSpelling x = sign ++ (d.positional.1 ++ '.' :: Decimal.filled d.positional.2) := by
  have hwhole : '.' ∉ sign ++ d.positional.1 := by
    rw [List.mem_append, not_or]
    exact ⟨not_mem_of_isSign hsign (by decide) (by decide),
      not_mem_of_isDigits (Decimal.isDigits_positional hd).1 rfl⟩
  simp only [floatSpelling, hx, decimal_plainNotation]
  cases d.positional.2 with
  | nil =>
    have hcontains : (sign ++ d.positional.1).contains '.' = false := by simpa using hwhole
    rw [Decimal.joined, Decimal.filled, if_pos rfl, if_neg Bool.false_ne_true, hcontains,
      if_neg Bool.false_ne_true, List.append_assoc]
  | cons c t =>
    have hcontains : (sign ++ (d.positional.1 ++ '.' :: c :: t)).contains '.' = true := by simp
    rw [Decimal.joined, Decimal.filled, if_neg (List.cons_ne_nil c t), hcontains, if_pos rfl]

/-- The spelling of a finite number is read as the number. -/
theorem isLexeme_floatSpelling (hx : x.isFinite = true) :
    IsLexeme (.float x) (floatSpelling x) := by
  obtain ⟨d, hd⟩ : ∃ d, d = Decimal.shortest .away x.magnitude := ⟨_, rfl⟩
  have hdigits : IsDigits d.digits := hd ▸ Decimal.isDigits_ofCoefficient _ _
  obtain ⟨hwhole, hfraction⟩ := Decimal.isDigits_positional hdigits
  have hvalue : floatValue (floatSign x) d.positional.1 (Decimal.filled d.positional.2) = x := by
    rw [floatValue, floatSign_beq, Binary64.ofQuotient,
      Decimal.nearest_positional .away (of_decide_eq_true hx) hd,
      Binary64.ofParts_negative_magnitude]
  have parts : FloatParts (floatSign x) d.positional.1 (Decimal.filled d.positional.2) [] :=
    ⟨isSign_floatSign x, hwhole, Decimal.isDigits_filled hfraction, Decimal.filled_ne_nil _, rfl⟩
  have hlexeme := IsLexeme.float parts (by rw [hvalue, hx])
  rw [hvalue] at hlexeme
  rwa [floatSpelling_of_write (isSign_floatSign x) hdigits (hd ▸ write_plainNotation hx)]

/-! ## Whole numbers -/

theorem fits_toInt (n : Int64) : fits n.toInt = true :=
  decide_eq_true ⟨n.minValue_le_toInt, n.toInt_le⟩

/-- The spelling of a whole number is read as the number. -/
theorem isLexeme_intSpelling (n : Int64) : IsLexeme (.int n) (intSpelling n) := by
  obtain ⟨sign, hsign, hspelling, hvalue⟩ : ∃ sign, IsSign sign ∧
      intSpelling n = sign ++ Nat.toDigits 10 n.toInt.natAbs ∧
      intValue sign (Nat.toDigits 10 n.toInt.natAbs) = n.toInt := by
    simp only [intSpelling, Decimal.signed, intValue, Decimal.digitsValue_toDigits]
    by_cases hneg : n.toInt < 0
    · refine ⟨['-'], Or.inr (Or.inr rfl), by rw [if_pos hneg]; rfl, ?_⟩
      rw [if_pos (by decide)]
      omega
    · refine ⟨[], Or.inl rfl, by rw [if_neg hneg, if_neg Bool.false_ne_true]; rfl, ?_⟩
      rw [if_neg (by decide)]
      omega
  have hlexeme := IsLexeme.int
    (⟨hsign, Decimal.isDigits_toDigits _, Nat.toDigits_ne_nil, rfl⟩ : IntParts sign _ [])
    (by rw [hvalue, fits_toInt])
  rwa [hvalue, Int64.ofInt_toInt, ← hspelling] at hlexeme

/-! ## String literals -/

/-- A content is read back from its escapes. -/
theorem quotes_escapedContent (afterStar : Bool) (content : Text) :
    Quotes (escapedContent afterStar content) content := by
  induction content generalizing afterStar with
  | nil => exact quotes_nil
  | cons c t ih =>
    rw [escapedContent]
    split
    · rename_i hfeed
      subst hfeed
      exact (ih _).escape 'n'
    · rename_i hfeed
      split
      · rename_i hescape
        have hunescape : unescape c = c := by
          refine if_neg ?_
          rintro rfl
          simp at hescape
        have hquotes := (ih (c == '*')).escape c
        rwa [hunescape] at hquotes
      · rename_i hescape
        rw [not_or, not_or] at hescape
        exact (ih _).cons hescape.1 hescape.2.1

/-- The escapes leave no line feed. -/
theorem newline_not_mem_escapedContent (afterStar : Bool) (content : Text) :
    '\n' ∉ escapedContent afterStar content := by
  induction content generalizing afterStar with
  | nil => exact List.not_mem_nil
  | cons c t ih =>
    rw [escapedContent, List.mem_append, not_or]
    refine ⟨?_, ih _⟩
    split
    · decide
    · rename_i hfeed
      split
      · simpa using fun h : '\n' = c => hfeed h.symm
      · simpa using fun h : '\n' = c => hfeed h.symm

theorem newline_not_mem_stringSpelling (content : Text) : '\n' ∉ stringSpelling content := by
  simpa [stringSpelling] using newline_not_mem_escapedContent false content

/-- A slash after a star does not come first. -/
theorem head?_escapedContent (content : Text) :
    (escapedContent true content ++ ['"']).head? ≠ some '/' := by
  cases content with
  | nil => decide
  | cons c t =>
    rw [escapedContent]
    split
    · simp
    · split
      · simp
      · rename_i hescape
        simp only [List.cons_append, List.head?_cons, ne_eq, Option.some.injEq]
        rintro rfl
        exact hescape (Or.inr (Or.inr ⟨rfl, rfl⟩))

/-- The escapes leave no end of a block comment. -/
theorem closings_escapedContent (afterStar : Bool) (content : Text) :
    closings (escapedContent afterStar content ++ ['"']) = 0 := by
  induction content generalizing afterStar with
  | nil => rfl
  | cons c t ih =>
    rw [escapedContent]
    split
    · rw [List.append_assoc, List.cons_append, List.cons_append, List.nil_append,
        closings_cons_of_ne (by decide), closings_cons_of_ne (by decide), ih]
    · split
      · rename_i hescape
        have hstar : c ≠ '*' := by
          rintro rfl
          simp at hescape
        rw [List.append_assoc, List.cons_append, List.cons_append, List.nil_append,
          closings_cons_of_ne (by decide), closings_cons_of_ne hstar, ih]
      · rw [List.append_assoc, List.cons_append, List.nil_append, closings_cons, ih, if_neg]
        rintro ⟨rfl, hhead⟩
        exact head?_escapedContent t hhead

theorem closings_stringSpelling (content : Text) : closings (stringSpelling content) = 0 := by
  rw [stringSpelling, List.cons_append, closings_cons_of_ne (by decide), closings_escapedContent]

/-! ## Marks and reserved words -/

theorem nameToken_spelling (w : Word) : nameToken w.spelling = .word w := by
  rw [nameToken, Word.ofText?_spelling]

theorem isLexeme_spelling_word (w : Word) : IsLexeme (.word w) w.spelling := by
  rw [← nameToken_spelling w]
  cases w <;> exact .name rfl (List.all_eq_true.1 rfl) rfl rfl rfl

/-! ## Any token -/

/-- A token that can be read can be read from its spelling. -/
theorem isLexeme_spelling (h : IsLexeme token lexeme) : IsLexeme token token.spelling := by
  cases h with
  | float _ finite => exact isLexeme_floatSpelling finite
  | int _ _ => exact isLexeme_intSpelling _
  | @name c run start continues notBlock notLine notInt =>
    cases hword : Word.ofText? (c :: run) with
    | none =>
      have hname := IsLexeme.name start continues notBlock notLine notInt
      rw [nameToken, hword] at hname ⊢
      exact hname
    | some w =>
      rw [nameToken, hword]
      exact isLexeme_spelling_word w
  | mark m => exact .mark m
  | string _ => exact .string (quotes_escapedContent false _)

theorem kind_nameToken (run : Text) :
    (nameToken run).kind = .name ∨ ∃ w, (nameToken run).kind = .word w := by
  rw [nameToken]
  cases Word.ofText? run with
  | none => exact Or.inl rfl
  | some w => exact Or.inr ⟨w, rfl⟩

theorem isInvalid_of_isLexeme (h : IsLexeme token lexeme) : token.isInvalid = false := by
  cases h with
  | @name c run _ _ _ _ _ =>
    rw [nameToken]
    cases Word.ofText? (c :: run) <;> rfl
  | _ => rfl

/-- The lexeme of a number is made of parts. -/
theorem exists_parts_of_isLexeme (h : IsLexeme token lexeme)
    (hkind : token.kind = .float ∨ token.kind = .int) :
    (∃ sign whole fraction, FloatParts sign whole fraction [] ∧
        lexeme = sign ++ (whole ++ '.' :: fraction)) ∨
      ∃ sign digits, IntParts sign digits [] ∧ lexeme = sign ++ digits := by
  cases h with
  | float parts _ => exact Or.inl ⟨_, _, _, parts, rfl⟩
  | int parts _ => exact Or.inr ⟨_, _, parts, rfl⟩
  | @name c run _ _ _ _ _ =>
    rcases kind_nameToken (c :: run) with h | ⟨w, h⟩ <;> simp [h] at hkind
  | mark m => simp [kind] at hkind
  | string _ => simp [kind] at hkind

/-! ## Block comments -/

/-- How many ends of block comments the name of a token holds. -/
def closings : Token Text → Nat
  | name n => Lexeme.closings n
  | _ => 0

/-- How many ends of block comments the names among tokens hold. -/
def totalClosings : List (Token Text) → Nat
  | [] => 0
  | k :: ks => k.closings + totalClosings ks

theorem totalClosings_cons (k : Token Text) (ks : List (Token Text)) :
    totalClosings (k :: ks) = k.closings + totalClosings ks := rfl

theorem closings_eq_zero_of_not_mem {t : Text} (h : '*' ∉ t) : Lexeme.closings t = 0 := by
  rw [closings_eq_zero_iff]
  exact fun hpair => h (hpair.subset (by simp))

/-- What no number can start with is nowhere in one. -/
theorem not_mem_number {c : Char} (h : IsLexeme token lexeme)
    (hkind : token.kind = .float ∨ token.kind = .int) (hc : ¬ StartsNumber c) : c ∉ lexeme := by
  simp only [StartsNumber, not_or, Bool.not_eq_true] at hc
  obtain ⟨hplus, hminus, hpoint, hdigit⟩ := hc
  rcases exists_parts_of_isLexeme h hkind with
    ⟨sign, whole, fraction, parts, rfl⟩ | ⟨sign, digits, parts, rfl⟩
  · simp only [List.mem_append, List.mem_cons, not_or]
    exact ⟨not_mem_of_isSign parts.isSign hplus hminus,
      not_mem_of_isDigits parts.isDigits_whole hdigit, hpoint,
      not_mem_of_isDigits parts.isDigits_fraction hdigit⟩
  · simp only [List.mem_append, not_or]
    exact ⟨not_mem_of_isSign parts.isSign hplus hminus,
      not_mem_of_isDigits parts.isDigits hdigit⟩

theorem not_startsNumber_star : ¬ StartsNumber '*' := by
  unfold StartsNumber
  decide

/-- Only the spelling of a name ends block comments. -/
theorem closings_spelling (h : IsLexeme token token.spelling) :
    Lexeme.closings token.spelling = token.closings := by
  cases token with
  | float x =>
    exact closings_eq_zero_of_not_mem (not_mem_number h (Or.inl rfl) not_startsNumber_star)
  | int n =>
    exact closings_eq_zero_of_not_mem (not_mem_number h (Or.inr rfl) not_startsNumber_star)
  | name n => rfl
  | string s => exact closings_stringSpelling s
  | mark m => cases m <;> rfl
  | word w => cases w <;> rfl
  | invalid t => cases isInvalid_of_isLexeme h

/-- Only the spelling of a name opens a block comment. -/
theorem eq_name_of_opens (h : IsLexeme token token.spelling)
    (hopens : ['/', '*'] <+: token.spelling) : ∃ n, token = .name n := by
  have hstar : '*' ∈ token.spelling := hopens.subset (by simp)
  cases token with
  | float x => exact absurd hstar (not_mem_number h (Or.inl rfl) not_startsNumber_star)
  | int n => exact absurd hstar (not_mem_number h (Or.inr rfl) not_startsNumber_star)
  | name n => exact ⟨n, rfl⟩
  | string s => simp [spelling, stringSpelling] at hopens
  | mark m => exact absurd hstar (by cases m <;> decide)
  | word w => exact absurd hstar (by cases w <;> decide)
  | invalid t => cases isInvalid_of_isLexeme h

end Token

end Lexicon
