import Lexicon.Proofs.FreeQuotes
import Lexicon.Proofs.Lexemes
import Lexicon.Proofs.Overflow

/-!
# What cannot be read

`Unreadable cause text` lists the texts that cannot be read, one clause for each way in
which they fail.

* Digits run into a character that is neither a digit nor a boundary.
* A run of name characters runs into a quote, and does not open a comment.
* A literal is not closed, or it is closed in front of something that is no boundary.
* A number is too large, with a point or without.  A number with a point comes first, so
  the digits in front of a point count as a whole number only when the digits behind it
  run into something else.

The clauses speak of the text alone.  A literal is closed by its first free quote, a
whole number is compared with the bounds of 64 bits, and a number with a point with
`Binary64.limit`.  Every text that starts with no blank and has one of these beginnings
is a fault with this cause, and there are no others (`read_eq_fault_iff`).

The rules are asked in their order, and the text is known better after each refusal.
When all of them have refused it starts with a digit or with a character of names, and
what runs into what is then plain (`unreadable_of_declined`).
-/

namespace Lexicon.Lexeme

open Text

variable {text rest : Text} {cause : Fault}

/-! ## The clauses -/

/-- Whether a text starts with a comment. -/
def OpensComment (text : Text) : Prop :=
  ['/', '/'] <+: text ∨ ∃ body, text = '/' :: '*' :: body ∧ ['*', '/'] <:+: body

/-- The texts at whose start nothing can be read, with the reason. -/
inductive Unreadable : Fault → Text → Prop where
  /-- Digits that run into something else. -/
  | digits {digits rest : Text} {c : Char} (isDigits : IsDigits digits) (nonempty : digits ≠ [])
      (longest : c.isDigit = false) (glued : isBoundary c = false) :
      Unreadable .unexpected (digits ++ c :: rest)
  /-- Name characters that run into a quote. -/
  | name {c : Char} {run rest : Text} (start : startsName c = true)
      (continues : ∀ d ∈ run, continuesName d = true)
      (noComment : ¬OpensComment (c :: (run ++ '"' :: rest))) :
      Unreadable .unexpected (c :: (run ++ '"' :: rest))
  /-- A literal that is not closed. -/
  | unterminated {body : Text} (unclosed : Unclosed body) : Unreadable .unterminated ('"' :: body)
  /-- A literal that is closed in front of something else than a boundary. -/
  | unseparated {before rest : Text} {c : Char} (closing : Closing before)
      (glued : isBoundary c = false) : Unreadable .unseparated ('"' :: (before ++ '"' :: c :: rest))
  /-- A number with a point that is too large. -/
  | float {sign whole fraction rest : Text} (parts : FloatParts sign whole fraction rest)
      (large : Binary64.limit * Nat.pow 10 fraction.length ≤ digitsValue (whole ++ fraction)) :
      Unreadable (.outOfRange (sign ++ whole ++ '.' :: fraction))
        (sign ++ (whole ++ '.' :: (fraction ++ rest)))
  /-- A whole number that is too large, in a text that has no number with a point. -/
  | int {sign digits rest : Text} (parts : IntParts sign digits rest)
      (noPoint : ∀ sign' whole fraction rest', FloatParts sign' whole fraction rest' →
        sign ++ (digits ++ rest) ≠ sign' ++ (whole ++ '.' :: (fraction ++ rest')))
      (large : intValue sign digits < -9223372036854775808 ∨
        9223372036854775807 < intValue sign digits) :
      Unreadable (.outOfRange (sign ++ digits)) (sign ++ (digits ++ rest))

/-! ## Comments -/

theorem opensComment_iff :
    OpensComment text ↔ blockComment text ≠ none ∨ lineComment text ≠ none := by
  have hblock : blockComment text ≠ none ↔
      ∃ body, text = '/' :: '*' :: body ∧ ['*', '/'] <:+: body := by
    rw [Ne, blockComment_eq_none_iff]
    simp only [closings_eq_zero_iff, Classical.not_forall, Classical.not_not, exists_prop]
  have hline : lineComment text ≠ none ↔ ['/', '/'] <+: text := by
    constructor
    · intro h
      obtain ⟨r, hr⟩ := Option.ne_none_iff_exists'.1 h
      obtain ⟨body, after, rfl, -, -, -⟩ := exists_of_lineComment hr
      exact ⟨body ++ after, rfl⟩
    · rintro ⟨body, rfl⟩
      exact Option.some_ne_none _
  rw [OpensComment, hblock, hline, or_comm]

theorem not_opensComment_iff :
    ¬OpensComment text ↔ blockComment text = none ∧ lineComment text = none := by
  rw [opensComment_iff, not_or, Classical.not_not, Classical.not_not]

/-! ## The order of the rules -/

/-- A fault is found when no comment starts here and one of the other rules finds it, or
when no rule reads anything. -/
theorem read_eq_fault_iff_rules :
    read text = .fault cause ↔ blockComment text = none ∧ lineComment text = none ∧
      (plain text = some (.fault cause) ∨ plain text = none ∧
        (quotation text = some (.fault cause) ∨
          quotation text = none ∧ cause = .unexpected)) := by
  rw [read_eq]
  cases hblock : blockComment text with
  | some r =>
    obtain ⟨_, _, -, -, rfl⟩ := exists_of_blockComment hblock
    simp
  | none =>
    cases hline : lineComment text with
    | some r =>
      obtain ⟨_, _, -, -, -, rfl⟩ := exists_of_lineComment hline
      simp
    | none =>
      cases plain text with
      | some r => simp
      | none => cases quotation text <;> simp [eq_comm]

/-- Only the rules for numbers find faults among the plain rules. -/
theorem plain_eq_fault_iff :
    plain text = some (.fault cause) ↔ float text = some (.fault cause) ∨
      float text = none ∧ int text = some (.fault cause) := by
  have hname : name text ≠ some (.fault cause) := by
    intro h
    obtain ⟨_, _, _, -, -, -, -, hr⟩ := exists_of_name h
    cases hr
  have hmark : mark text ≠ some (.fault cause) := by
    intro h
    obtain ⟨_, _, -, hr⟩ := exists_of_mark h
    cases hr
  simp only [plain, Option.or_eq_some_iff, hname, hmark, and_false, or_false]

/-! ## Numbers that are too large -/

theorem float_eq_fault_iff :
    float text = some (.fault cause) ↔ ∃ sign whole fraction rest,
      FloatParts sign whole fraction rest ∧
        text = sign ++ (whole ++ '.' :: (fraction ++ rest)) ∧
        Binary64.limit * Nat.pow 10 fraction.length ≤ digitsValue (whole ++ fraction) ∧
        cause = .outOfRange (sign ++ whole ++ '.' :: fraction) := by
  have hlarge : ∀ sign whole fraction, (floatValue sign whole fraction).isFinite = false ↔
      Binary64.limit * Nat.pow 10 fraction.length ≤ digitsValue (whole ++ fraction) := by
    intro sign whole fraction
    have hpos : 0 < Nat.pow 10 fraction.length := Nat.pow_pos (by decide)
    rw [← Bool.not_eq_true, floatValue, Binary64.isFinite_ofQuotient_iff _ _ hpos, Nat.not_lt]
  constructor
  · intro h
    obtain ⟨sign, whole, fraction, rest, parts, htext, hr⟩ := exists_parts_of_float h
    obtain ⟨hfinite, hcause⟩ := floatReading_eq_fault_iff.1 hr.symm
    have hvalue := (hlarge sign whole fraction).1 hfinite
    exact ⟨sign, whole, fraction, rest, parts, htext, hvalue, hcause⟩
  · rintro ⟨sign, whole, fraction, rest, parts, rfl, hvalue, hcause⟩
    have hfinite := (hlarge sign whole fraction).2 hvalue
    rw [float_of_parts parts, floatReading_eq_fault_iff.2 ⟨hfinite, hcause⟩]

theorem float_eq_none_iff :
    float text = none ↔ ∀ sign whole fraction rest, FloatParts sign whole fraction rest →
      text ≠ sign ++ (whole ++ '.' :: (fraction ++ rest)) := by
  constructor
  · rintro h sign whole fraction rest parts rfl
    rw [float_of_parts parts] at h
    cases h
  · intro h
    cases hfloat : float text with
    | none => rfl
    | some r =>
      obtain ⟨sign, whole, fraction, rest, parts, htext, -⟩ := exists_parts_of_float hfloat
      exact absurd htext (h sign whole fraction rest parts)

theorem int_eq_fault_iff :
    int text = some (.fault cause) ↔ ∃ sign digits rest, IntParts sign digits rest ∧
      text = sign ++ (digits ++ rest) ∧
      (intValue sign digits < -9223372036854775808 ∨
        9223372036854775807 < intValue sign digits) ∧
      cause = .outOfRange (sign ++ digits) := by
  constructor
  · intro h
    obtain ⟨sign, digits, rest, parts, htext, hr⟩ := exists_parts_of_int h
    obtain ⟨hfits, hcause⟩ := intReading_eq_fault_iff.1 hr.symm
    exact ⟨sign, digits, rest, parts, htext, fits_eq_false_iff.1 hfits, hcause⟩
  · rintro ⟨sign, digits, rest, parts, rfl, hvalue, hcause⟩
    have hfits := fits_eq_false_iff.2 hvalue
    rw [int_of_parts parts, intReading_eq_fault_iff.2 ⟨hfits, hcause⟩]

/-! ## Literals that are not closed -/

theorem quotation_eq_fault_iff :
    quotation text = some (.fault cause) ↔
      (∃ body, text = '"' :: body ∧ Unclosed body ∧ cause = .unterminated) ∨
      ∃ before c rest, text = '"' :: (before ++ '"' :: c :: rest) ∧ Closing before ∧
        isBoundary c = false ∧ cause = .unseparated := by
  constructor
  · intro h
    fun_cases quotation text with
    | case1 body =>
      rcases exists_closing body with hopen | ⟨before, after, hclosing, rfl⟩
      · rw [quotation, quotationBody_of_unclosed hopen] at h
        have hcause := Reading.fault.inj (Option.some.inj h)
        exact Or.inl ⟨body, rfl, hopen, hcause.symm⟩
      · rw [quotation, quotationBody_of_closing hclosing] at h
        cases after with
        | nil => cases Option.some.inj h
        | cons c rest =>
          cases hc : isBoundary c with
          | true =>
            rw [atBoundary_cons, hc] at h
            cases Option.some.inj h
          | false =>
            rw [atBoundary_cons, hc] at h
            have hcause := Reading.fault.inj (Option.some.inj h)
            exact Or.inr ⟨before, c, rest, rfl, hclosing, hc, hcause.symm⟩
    | case2 t hquote => simp [quotation] at h
  · rintro (⟨body, rfl, hopen, rfl⟩ | ⟨before, c, rest, rfl, hclosing, hc, rfl⟩)
    · rw [quotation, quotationBody_of_unclosed hopen]
    · rw [quotation, quotationBody_of_closing hclosing, atBoundary_cons, hc]
      rfl

/-! ## Texts that every rule refuses -/

/-- Digits that are no whole number run into something. -/
theorem exists_glued_digits {c : Char} {t : Text} (hc : c.isDigit = true)
    (h : int (c :: t) = none) :
    ∃ digits d rest, c :: t = digits ++ d :: rest ∧ IsDigits digits ∧ digits ≠ [] ∧
      d.isDigit = false ∧ isBoundary d = false := by
  have hsplit := List.takeWhile_append_dropWhile (p := Char.isDigit) (l := c :: t)
  have hdigits : IsDigits ((c :: t).takeWhile Char.isDigit) := forall_mem_takeWhile _ _
  have hne : (c :: t).takeWhile Char.isDigit ≠ [] := by
    rw [List.takeWhile_cons_of_pos hc]
    exact List.cons_ne_nil _ _
  have hstops := stops_dropWhile Char.isDigit (c :: t)
  generalize (c :: t).takeWhile Char.isDigit = digits at *
  generalize (c :: t).dropWhile Char.isDigit = after at *
  have hboundary : atBoundary after ≠ true := by
    intro hboundary
    have parts : IntParts [] digits after := ⟨Or.inl rfl, hdigits, hne, hboundary⟩
    have hint := int_of_parts parts
    rw [List.nil_append, hsplit, h] at hint
    cases hint
  cases after with
  | nil => exact absurd rfl hboundary
  | cons d rest =>
    exact ⟨digits, d, rest, hsplit.symm, hdigits, hne, stops_cons.1 hstops,
      Bool.eq_false_iff.2 hboundary⟩

/-- A character that neither continues a name nor is a boundary is a quote. -/
theorem eq_quote_of_not_continuesName {c : Char} (h : continuesName c = false)
    (hc : isBoundary c = false) : c = '"' := by
  simpa [continuesName, hc] using h

/-- A run of name characters that is no name runs into a quote. -/
theorem exists_glued_name {c : Char} {t : Text} (hc : startsName c = true)
    (h : name (c :: t) = none) :
    ∃ run rest, c :: t = c :: (run ++ '"' :: rest) ∧ ∀ d ∈ run, continuesName d = true := by
  have hsplit := List.takeWhile_append_dropWhile (p := continuesName) (l := t)
  have hrun : ∀ d ∈ t.takeWhile continuesName, continuesName d = true :=
    forall_mem_takeWhile _ _
  have hstops := stops_dropWhile continuesName t
  generalize t.takeWhile continuesName = run at *
  generalize t.dropWhile continuesName = after at *
  have hboundary : atBoundary after ≠ true := by
    intro hboundary
    have hname := name_of_run hc hrun hboundary
    rw [hsplit, h] at hname
    cases hname
  cases after with
  | nil => exact absurd rfl hboundary
  | cons d rest =>
    have hquote := eq_quote_of_not_continuesName (stops_cons.1 hstops)
      (Bool.eq_false_iff.2 hboundary)
    rw [hquote] at hsplit
    exact ⟨run, rest, by rw [hsplit], hrun⟩

/-- What no rule reads starts with digits or with name characters. -/
theorem unreadable_of_declined (hne : text ≠ []) (hstops : Stops isBlank text)
    (hcomment : ¬OpensComment text) (hplain : plain text = none)
    (hquotation : quotation text = none) : Unreadable .unexpected text := by
  obtain ⟨c, t, rfl⟩ := List.exists_cons_of_ne_nil hne
  simp only [plain, Option.or_eq_none_iff] at hplain
  obtain ⟨-, hint, hname, hmark⟩ := hplain
  cases hdigit : c.isDigit with
  | true =>
    obtain ⟨digits, d, rest, heq, hdigits, hne', hlongest, hglued⟩ :=
      exists_glued_digits hdigit hint
    rw [heq]
    exact .digits hdigits hne' hlongest hglued
  | false =>
    have hquote : c ≠ '"' := by
      rintro rfl
      cases hquotation
    have hboundary : isBoundary c = false := by
      rw [isBoundary, stops_cons.1 hstops, Option.map_eq_none_iff.1 hmark]
      rfl
    have hstart : startsName c = true := by simp [startsName, continuesName, hdigit, hquote,
      hboundary]
    obtain ⟨run, rest, heq, hrun⟩ := exists_glued_name hstart hname
    rw [heq] at hcomment ⊢
    exact .name hstart hrun hcomment

/-! ## What runs into something else -/

/-- Behind its sign and its digits, a text of which a part runs into something else is
at no boundary. -/
theorem not_atBoundary_of_glued {c d : Char} {run : Text}
    (hrun : ∀ e ∈ c :: run, isBoundary e = false) (hdigit : d.isDigit = false)
    (hd : isBoundary d = false) (rest : Text) :
    atBoundary ((splitSign (c :: (run ++ d :: rest))).2.dropWhile Char.isDigit) = false := by
  have hdrop : ∀ t : Text, (∀ e ∈ t, isBoundary e = false) →
      atBoundary ((t ++ d :: rest).dropWhile Char.isDigit) = false := by
    intro t ht
    have hstops : Stops Char.isDigit (d :: rest) := stops_cons.2 hdigit
    have hsuffix : t.dropWhile Char.isDigit <:+ t := List.dropWhile_suffix _
    rw [hstops.dropWhile_append]
    generalize t.dropWhile Char.isDigit = u at hsuffix
    cases u with
    | nil => exact hd
    | cons e u => exact ht e (hsuffix.mem (List.mem_cons_self ..))
  by_cases hsign : c = '+' ∨ c = '-'
  · have htail := hdrop run (List.forall_mem_cons.1 hrun).2
    rcases hsign with rfl | rfl
    · exact htail
    · exact htail
  · have hunsigned : IsUnsigned (c :: (run ++ d :: rest)) := by
      intro e he
      obtain rfl : c = e := by simpa using he
      exact not_or.1 hsign
    rw [splitSign_of_isUnsigned hunsigned]
    exact hdrop (c :: run) hrun

theorem float_eq_none_of_not_atBoundary
    (h : atBoundary ((splitSign text).2.dropWhile Char.isDigit) = false) : float text = none := by
  simp only [float]
  split
  · rename_i tail hpoint
    rw [hpoint] at h
    cases h
  · rfl

theorem int_eq_none_of_not_atBoundary
    (h : atBoundary ((splitSign text).2.dropWhile Char.isDigit) = false) : int text = none := by
  simp only [int, h, Bool.not_false, Bool.or_true, if_true]

theorem mark_eq_none {c : Char} (hc : isBoundary c = false) (t : Text) : mark (c :: t) = none := by
  rw [isBoundary, Bool.or_eq_false_iff] at hc
  rw [mark, Option.map_eq_none_iff]
  exact Option.isNone_iff_eq_none.1 (Option.isSome_eq_false_iff.1 hc.2)

theorem quotation_eq_none {c : Char} (hc : c ≠ '"') (t : Text) : quotation (c :: t) = none := by
  unfold quotation
  split
  · rename_i heq
    exact absurd (List.cons.inj heq).1 hc
  · rfl

/-- When a part of a text runs into something else, only the rule for names could read
it. -/
theorem read_of_glued {c d : Char} {run : Text} (hcomment : ¬OpensComment (c :: (run ++ d :: rest)))
    (hrun : ∀ e ∈ c :: run, isBoundary e = false) (hdigit : d.isDigit = false)
    (hd : isBoundary d = false) (hquote : c ≠ '"') (hname : name (c :: (run ++ d :: rest)) = none) :
    read (c :: (run ++ d :: rest)) = .fault .unexpected := by
  obtain ⟨hblock, hline⟩ := not_opensComment_iff.1 hcomment
  have hboundary := not_atBoundary_of_glued hrun hdigit hd rest
  have hplain : plain (c :: (run ++ d :: rest)) = none := by
    rw [plain, float_eq_none_of_not_atBoundary hboundary, int_eq_none_of_not_atBoundary hboundary,
      hname, mark_eq_none (hrun c (List.mem_cons_self ..))]
    rfl
  exact read_eq_fault_iff_rules.2
    ⟨hblock, hline, Or.inr ⟨hplain, Or.inr ⟨quotation_eq_none hquote _, rfl⟩⟩⟩

theorem not_opensComment_cons {c : Char} (hc : c ≠ '/') (t : Text) : ¬OpensComment (c :: t) := by
  rintro (h | ⟨body, heq, -⟩)
  · exact hc (List.cons_prefix_cons.1 h).1.symm
  · exact hc (List.cons.inj heq).1

/-! ## Faults and clauses -/

/-- A fault found in a number is found by reading. -/
theorem read_of_plain {c : Char} {t : Text} (hc : StartsNumber c)
    (h : plain (c :: t) = some (.fault cause)) : read (c :: t) = .fault cause := by
  obtain ⟨hblock, hline⟩ := not_opensComment_iff.1 (not_opensComment_cons hc.ne_slash t)
  exact read_eq_fault_iff_rules.2 ⟨hblock, hline, Or.inl h⟩

theorem Unreadable.read_eq (h : Unreadable cause text) : read text = .fault cause := by
  cases h with
  | @digits digits rest d isDigits nonempty longest glued =>
    obtain ⟨c, run, rfl⟩ := List.exists_cons_of_ne_nil nonempty
    have hc : c.isDigit = true := isDigits c (List.mem_cons_self ..)
    have hname : Lexeme.name (c :: (run ++ d :: rest)) = none := by
      simp [Lexeme.name, startsName, hc]
    exact read_of_glued (not_opensComment_cons (isDigit_ne hc (by decide)) _)
      (fun e he => isBoundary_eq_false_of_isDigit (isDigits e he)) longest glued
      (isDigit_ne hc (by decide)) hname
  | @name c run rest start continues noComment =>
    have hall := forall_continuesName start continues
    have hboundary : ∀ e ∈ c :: run, isBoundary e = false := fun e he =>
      isBoundary_eq_false_of_continuesName (hall e he)
    have hquote : c ≠ '"' := by
      rintro rfl
      cases hall '"' (List.mem_cons_self ..)
    have hstops : Stops continuesName ('"' :: rest) := stops_cons.2 rfl
    have hname : Lexeme.name (c :: (run ++ '"' :: rest)) = none := by
      obtain ⟨-, hdrop⟩ := hstops.split_append continues
      have hglued : atBoundary ('"' :: rest) = false := rfl
      simp only [Lexeme.name, hdrop, hglued, Bool.and_false, Bool.false_eq_true, if_false]
    exact read_of_glued noComment hboundary rfl rfl hquote hname
  | @unterminated body unclosed =>
    have hquotation := quotation_eq_fault_iff.2 (Or.inl ⟨body, rfl, unclosed, rfl⟩)
    rw [read_cons_of_ne_slash (by decide), plain_quote, hquotation]
    rfl
  | @unseparated before rest c closing glued =>
    have hquotation :=
      quotation_eq_fault_iff.2 (Or.inr ⟨before, c, rest, rfl, closing, glued, rfl⟩)
    rw [read_cons_of_ne_slash (by decide), plain_quote, hquotation]
    rfl
  | @float sign whole fraction rest parts large =>
    obtain ⟨c, u, heq, hc⟩ := parts.startsNumber
    have hfloat :=
      float_eq_fault_iff.2 ⟨sign, whole, fraction, rest, parts, rfl, large, rfl⟩
    have htext : sign ++ (whole ++ '.' :: (fraction ++ rest)) = c :: (u ++ rest) := by
      calc sign ++ (whole ++ '.' :: (fraction ++ rest))
        _ = sign ++ (whole ++ '.' :: fraction) ++ rest := by simp
        _ = c :: (u ++ rest) := congrArg (· ++ rest) heq
    rw [htext] at hfloat ⊢
    exact read_of_plain hc (plain_eq_fault_iff.2 (Or.inl hfloat))
  | @int sign digits rest parts noPoint large =>
    obtain ⟨c, u, heq, hc⟩ := parts.startsNumber
    have hint := int_eq_fault_iff.2 ⟨sign, digits, rest, parts, rfl, large, rfl⟩
    have hfloat := float_eq_none_iff.2 noPoint
    have htext : sign ++ (digits ++ rest) = c :: (u ++ rest) := by
      rw [← List.append_assoc, heq, List.cons_append]
    rw [htext] at hint hfloat ⊢
    exact read_of_plain hc (plain_eq_fault_iff.2 (Or.inr ⟨hfloat, hint⟩))

/-- Nothing can be read exactly at the start of a text that is unreadable, and the fault
is the reason for it. -/
theorem read_eq_fault_iff (hne : text ≠ []) (hstops : Stops isBlank text) :
    read text = .fault cause ↔ Unreadable cause text := by
  refine ⟨fun h => ?_, Unreadable.read_eq⟩
  obtain ⟨hblock, hline, hrules⟩ := read_eq_fault_iff_rules.1 h
  rcases hrules with hplain | ⟨hplain, hquotation | ⟨hquotation, rfl⟩⟩
  · rcases plain_eq_fault_iff.1 hplain with hfloat | ⟨hfloat, hint⟩
    · obtain ⟨sign, whole, fraction, rest, parts, rfl, hlarge, rfl⟩ :=
        float_eq_fault_iff.1 hfloat
      exact .float parts hlarge
    · obtain ⟨sign, digits, rest, parts, rfl, hlarge, rfl⟩ := int_eq_fault_iff.1 hint
      exact .int parts (float_eq_none_iff.1 hfloat) hlarge
  · rcases quotation_eq_fault_iff.1 hquotation with
      ⟨body, rfl, hunclosed, rfl⟩ | ⟨before, c, rest, rfl, hclosing, hglued, rfl⟩
    · exact .unterminated hunclosed
    · exact .unseparated hclosing hglued
  · exact unreadable_of_declined hne hstops (not_opensComment_iff.2 ⟨hblock, hline⟩) hplain
      hquotation

/-- A quote behind a digit and a sign is no part of a number. -/
theorem read_eq_fault_iff_glued :
    ['-', '5', '"'] ≠ [] ∧ Stops isBlank ['-', '5', '"'] ∧
      (read ['-', '5', '"'] = .fault .unexpected ↔ Unreadable .unexpected ['-', '5', '"']) := by
  have hstops : Stops isBlank ['-', '5', '"'] := stops_cons.2 rfl
  exact ⟨List.cons_ne_nil _ _, hstops, read_eq_fault_iff (List.cons_ne_nil _ _) hstops⟩

end Lexicon.Lexeme
