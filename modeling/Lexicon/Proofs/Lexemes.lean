import Lexicon.Lexeme.Rules
import Lexicon.Proofs.Closings
import Lexicon.Proofs.Numerals
import Lexicon.Proofs.Quotations

/-!
# The grammar of lexemes

`IsLexeme token lexeme` lists the texts a token can be read from, one clause for
each kind of token.  It does not mention what comes behind the lexeme.  The two
main statements say that it describes reading.

* `isLexeme_of_read`: what is taken off a text for a token is a lexeme of it,
  whatever the rest.
* `IsLexeme.read_eq`: a lexeme by itself is read as its token, with nothing left.

Together they say that the rest of a text can be cut off behind the token that
is read first.

The rules are tried in order, and the order is spelled out once, in `read_eq`.
`plain` stands for the four rules that look no further than the boundary behind
their lexeme.  Reading a token is then a matter of four rules instead of seven
(`read_eq_token_iff`).
-/

namespace Lexicon.Lexeme

open Text

variable {text lexeme rest : Text} {token : Token Text}

/-! ## The order of the rules -/

/-- The rules for tokens other than string literals. -/
def plain : Rule := fun text =>
  (float text).or ((int text).or ((name text).or (mark text)))

theorem read_eq (text : Text) :
    read text = ((blockComment text).or ((lineComment text).or ((plain text).or
      (quotation text)))).getD (.fault .unexpected) := by
  simp only [read, rules, plain, List.findSome?_cons, List.findSome?_nil, Option.or_assoc]
  cases blockComment text <;> cases lineComment text <;> cases float text <;> cases int text <;>
    cases name text <;> cases mark text <;> cases quotation text <;> rfl

/-! ## What each rule reads -/

theorem exists_of_name {r : Reading} (h : name text = some r) :
    ∃ (c : Char) (run rest : Text), text = c :: (run ++ rest) ∧ startsName c = true ∧
      (∀ d ∈ run, continuesName d = true) ∧ rest.atBoundary = true ∧
      r = .token (nameToken (c :: run)) rest := by
  cases text with
  | nil => cases h
  | cons c t =>
    simp only [name] at h
    split at h
    · rename_i hname
      rw [Bool.and_eq_true] at hname
      exact ⟨c, t.takeWhile continuesName, t.dropWhile continuesName,
        by rw [List.takeWhile_append_dropWhile], hname.1, forall_mem_takeWhile _ _, hname.2,
        (Option.some.inj h).symm⟩
    · cases h

theorem continuesName_of_isBoundary {c : Char} (h : isBoundary c = true) :
    continuesName c = false := by
  simp [continuesName, h]

theorem stops_continuesName_of_atBoundary (h : text.atBoundary = true) :
    Stops continuesName text := by
  cases text with
  | nil => exact stops_nil
  | cons c t => exact stops_cons.2 (continuesName_of_isBoundary h)

theorem name_of_run {c : Char} {run : Text} (hc : startsName c = true)
    (hrun : ∀ d ∈ run, continuesName d = true) (hrest : rest.atBoundary = true) :
    name (c :: (run ++ rest)) = some (.token (nameToken (c :: run)) rest) := by
  obtain ⟨htake, hdrop⟩ := (stops_continuesName_of_atBoundary hrest).split_append hrun
  simp [name, htake, hdrop, hc, hrest]

theorem exists_of_mark {r : Reading} (h : mark text = some r) :
    ∃ m rest, text = m.char :: rest ∧ r = .token (.mark m) rest := by
  cases text with
  | nil => cases h
  | cons c t =>
    obtain ⟨m, hm, rfl⟩ := Option.map_eq_some_iff.1 h
    exact ⟨m, t, by rw [Mark.char_of_ofChar? hm], rfl⟩

/-- The four plain rules give no comment. -/
theorem plain_ne_comment (text rest : Text) : plain text ≠ some (.comment rest) := by
  intro h
  simp only [plain, Option.or_eq_some_iff] at h
  rcases h with h | ⟨-, h | ⟨-, h | ⟨-, h⟩⟩⟩
  · obtain ⟨_, _, _, _, -, -, hr⟩ := exists_parts_of_float h
    rw [floatReading] at hr
    split at hr <;> cases hr
  · obtain ⟨_, _, _, -, -, hr⟩ := exists_parts_of_int h
    rw [intReading] at hr
    split at hr <;> cases hr
  · obtain ⟨_, _, _, -, -, -, -, hr⟩ := exists_of_name h
    cases hr
  · obtain ⟨_, _, -, hr⟩ := exists_of_mark h
    cases hr

theorem quotation_ne_comment (text rest : Text) : quotation text ≠ some (.comment rest) := by
  intro h
  fun_cases quotation text with
  | case1 body =>
    have hreading := Option.some.inj h
    split at hreading <;> cases hreading
  | case2 t hopen => simp [quotation] at h

/-- A token is read when no comment starts here and one of the other rules reads
it. -/
theorem read_eq_token_iff :
    read text = .token token rest ↔
      blockComment text = none ∧ lineComment text = none ∧
        (plain text = some (.token token rest) ∨
          plain text = none ∧ quotation text = some (.token token rest)) := by
  rw [read_eq]
  cases hblock : blockComment text with
  | some r =>
    obtain ⟨_, _, -, -, rfl⟩ := exists_of_blockComment hblock
    simp
  | none =>
    cases hline : lineComment text with
    | some r =>
      obtain ⟨_, _, -, -, -, rfl⟩ := exists_of_lineComment hline
      simp
    | none =>
      cases plain text with
      | some r => simp
      | none => cases quotation text <;> simp

/-- A comment is read by one of the two rules for comments. -/
theorem read_eq_comment_iff :
    read text = .comment rest ↔
      blockComment text = some (.comment rest) ∨
        blockComment text = none ∧ lineComment text = some (.comment rest) := by
  rw [read_eq]
  cases blockComment text with
  | some r => simp
  | none =>
    cases lineComment text with
    | some r => simp
    | none =>
      have hplain := plain_ne_comment text rest
      have hquotation := quotation_ne_comment text rest
      cases hp : plain text with
      | some r =>
        rw [hp] at hplain
        simpa using hplain
      | none =>
        cases hq : quotation text with
        | some r =>
          rw [hq] at hquotation
          simpa using hquotation
        | none => simp

/-! ## Lexemes -/

/-- The texts a token can be read from. -/
inductive IsLexeme : Token Text → Text → Prop where
  /-- A sign, digits, a point and digits, for a finite number. -/
  | float {sign whole fraction : Text} (parts : FloatParts sign whole fraction [])
      (finite : (floatValue sign whole fraction).isFinite = true) :
      IsLexeme (.float (floatValue sign whole fraction)) (sign ++ (whole ++ '.' :: fraction))
  /-- A sign and digits, for a number of 64 bits. -/
  | int {sign digits : Text} (parts : IntParts sign digits [])
      (fit : fits (intValue sign digits) = true) :
      IsLexeme (.int (Int64.ofInt (intValue sign digits))) (sign ++ digits)
  /-- A run of name characters that is neither a comment nor a number. -/
  | name {c : Char} {run : Text} (start : startsName c = true)
      (continues : ∀ d ∈ run, continuesName d = true)
      (notBlock : blockComment (c :: run) = none) (notLine : lineComment (c :: run) = none)
      (notInt : int (c :: run) = none) : IsLexeme (nameToken (c :: run)) (c :: run)
  /-- The character of a mark. -/
  | mark (m : Mark) : IsLexeme (.mark m) [m.char]
  /-- A body between quotes. -/
  | string {body content : Text} (quotes : Quotes body content) :
      IsLexeme (.string content) ('"' :: (body ++ ['"']))

/-- What was no comment is none without the rest. -/
theorem blockComment_eq_none_of_append (h : blockComment (lexeme ++ rest) = none) :
    blockComment lexeme = none := by
  rw [blockComment_eq_none_iff] at *
  rintro body rfl
  have hle := closings_append_le body rest
  have hzero := h (body ++ rest) rfl
  omega

theorem lineComment_eq_none_of_append (h : lineComment (lexeme ++ rest) = none) :
    lineComment lexeme = none := by
  fun_cases lineComment lexeme with
  | case1 body => cases h
  | case2 t hopen => rfl

/-- Behind a number in a run of name characters nothing is left, as a boundary does not
continue the run. -/
theorem IntParts.rest_eq_nil {sign digits : Text} (h : IntParts sign digits rest)
    (hrun : ∀ d ∈ sign ++ (digits ++ rest), continuesName d = true) : rest = [] := by
  cases rest with
  | nil => rfl
  | cons c rest =>
    have hc : continuesName c = true := hrun c (by simp)
    rw [continuesName_of_isBoundary h.atBoundary] at hc
    cases hc

/-- A run of name characters is a number in front of a boundary if it is one by
itself. -/
theorem int_eq_none_of_append {run : Text} (hrun : ∀ d ∈ run, continuesName d = true)
    (hrest : rest.atBoundary = true) (h : int (run ++ rest) = none) : int run = none := by
  cases hint : int run with
  | none => rfl
  | some r =>
    obtain ⟨sign, digits, after, parts, rfl, -⟩ := exists_parts_of_int hint
    obtain rfl := parts.rest_eq_nil hrun
    rw [List.append_nil, List.append_assoc,
      int_of_parts ⟨parts.isSign, parts.isDigits, parts.ne_nil, hrest⟩] at h
    cases h

theorem forall_continuesName {c : Char} {run : Text} (hc : startsName c = true)
    (hrun : ∀ d ∈ run, continuesName d = true) : ∀ d ∈ c :: run, continuesName d = true := by
  rw [startsName, Bool.and_eq_true] at hc
  exact List.forall_mem_cons.2 ⟨hc.2, hrun⟩

theorem not_mem_of_continuesName {run : Text} (h : ∀ d ∈ run, continuesName d = true) :
    '.' ∉ run := by
  intro hmem
  exact absurd (h '.' hmem) (by decide)

theorem not_mem_of_intParts {sign digits : Text} (parts : IntParts sign digits rest) :
    '.' ∉ sign ++ digits := by
  rw [List.mem_append, not_or]
  refine ⟨?_, fun hmem => absurd (parts.isDigits '.' hmem) (by decide)⟩
  rcases parts.isSign with rfl | rfl | rfl <;> decide

/-- What is taken off a text for a token is a lexeme of the token. -/
theorem isLexeme_of_read (h : read (lexeme ++ rest) = .token token rest) :
    IsLexeme token lexeme := by
  obtain ⟨hblock, hline, h⟩ := read_eq_token_iff.1 h
  simp only [plain, Option.or_eq_some_iff] at h
  rcases h with (h | ⟨-, h | ⟨hint, h | ⟨-, h⟩⟩⟩) | ⟨-, h⟩
  · obtain ⟨sign, whole, fraction, parts, htext, hfinite, rfl⟩ := exists_parts_of_float_token h
    obtain rfl : lexeme = sign ++ (whole ++ '.' :: fraction) :=
      List.append_cancel_right (htext.trans (by simp))
    exact .float ⟨parts.isSign, parts.isDigits_whole, parts.isDigits_fraction,
      parts.fraction_ne_nil, rfl⟩ hfinite
  · obtain ⟨sign, digits, parts, htext, hfits, rfl⟩ := exists_parts_of_int_token h
    obtain rfl : lexeme = sign ++ digits :=
      List.append_cancel_right (htext.trans (by simp))
    exact .int ⟨parts.isSign, parts.isDigits, parts.ne_nil, rfl⟩ hfits
  · obtain ⟨c, run, r, htext, hstart, hrun, hboundary, hr⟩ := exists_of_name h
    obtain ⟨rfl, rfl⟩ := Reading.token.inj hr
    obtain rfl : lexeme = c :: run :=
      List.append_cancel_right (htext.trans (by simp))
    have hall := forall_continuesName hstart hrun
    exact .name hstart hrun (blockComment_eq_none_of_append hblock)
      (lineComment_eq_none_of_append hline) (int_eq_none_of_append hall hboundary hint)
  · obtain ⟨m, r, htext, hr⟩ := exists_of_mark h
    obtain ⟨rfl, rfl⟩ := Reading.token.inj hr
    obtain rfl : lexeme = [m.char] :=
      List.append_cancel_right (htext.trans (by simp))
    exact .mark m
  · obtain ⟨body, content, htext, -, hquotes, rfl⟩ := exists_quotes_of_quotation h
    obtain rfl : lexeme = '"' :: (body ++ ['"']) :=
      List.append_cancel_right (htext.trans (by simp))
    exact .string hquotes

/-! ## The ends of a lexeme -/

/-- Whether a character can be the first of a number. -/
def StartsNumber (c : Char) : Prop := c = '+' ∨ c = '-' ∨ c = '.' ∨ c.isDigit = true

theorem StartsNumber.ne_slash {c : Char} (h : StartsNumber c) : c ≠ '/' := by
  rintro rfl
  revert h
  unfold StartsNumber
  decide

theorem isBoundary_eq_false_of_isDigit {c : Char} (h : c.isDigit = true) :
    isBoundary c = false := by
  cases hc : isBoundary c with
  | false => rfl
  | true =>
    rw [isDigit_of_isBoundary hc] at h
    cases h

theorem isBoundary_eq_false_of_continuesName {c : Char} (h : continuesName c = true) :
    isBoundary c = false := by
  rw [continuesName, Bool.and_eq_true, Bool.not_eq_true'] at h
  exact h.2

theorem isBlank_eq_false_of_isDigit {c : Char} (h : c.isDigit = true) : isBlank c = false := by
  cases hc : isBlank c with
  | false => rfl
  | true =>
    rw [isDigit_of_isBoundary (isBoundary_of_isBlank hc)] at h
    exact Bool.noConfusion h

theorem isBlank_eq_false_of_continuesName {c : Char} (h : continuesName c = true) :
    isBlank c = false := by
  cases hc : isBlank c with
  | false => rfl
  | true =>
    rw [continuesName_of_isBoundary (isBoundary_of_isBlank hc)] at h
    exact Bool.noConfusion h

theorem StartsNumber.isBlank_eq_false {c : Char} (h : StartsNumber c) : isBlank c = false := by
  rcases h with rfl | rfl | rfl | h
  · rfl
  · rfl
  · rfl
  · exact isBlank_eq_false_of_isDigit h

theorem startsNumber_of_isDigits {digits : Text} (h : IsDigits digits) (hne : digits ≠ [])
    (t : Text) : ∃ c u, digits ++ t = c :: u ∧ StartsNumber c := by
  obtain ⟨c, u, rfl⟩ := List.exists_cons_of_ne_nil hne
  exact ⟨c, u ++ t, rfl, Or.inr (Or.inr (Or.inr (h c (by simp))))⟩

theorem startsNumber_of_isSign {sign t : Text} (h : IsSign sign)
    (ht : ∃ c u, t = c :: u ∧ StartsNumber c) : ∃ c u, sign ++ t = c :: u ∧ StartsNumber c := by
  rcases h with rfl | rfl | rfl
  · exact ht
  · exact ⟨'+', t, rfl, Or.inl rfl⟩
  · exact ⟨'-', t, rfl, Or.inr (Or.inl rfl)⟩

theorem FloatParts.startsNumber {sign whole fraction : Text}
    (h : FloatParts sign whole fraction rest) :
    ∃ c u, sign ++ (whole ++ '.' :: fraction) = c :: u ∧ StartsNumber c := by
  refine startsNumber_of_isSign h.isSign ?_
  cases whole with
  | nil => exact ⟨'.', fraction, rfl, Or.inr (Or.inr (Or.inl rfl))⟩
  | cons c whole => exact startsNumber_of_isDigits h.isDigits_whole (by simp) _

theorem IntParts.startsNumber {sign digits : Text} (h : IntParts sign digits rest) :
    ∃ c u, sign ++ digits = c :: u ∧ StartsNumber c := by
  refine startsNumber_of_isSign h.isSign ?_
  simpa using startsNumber_of_isDigits h.isDigits h.ne_nil []

/-- A lexeme starts with a character that is no blank. -/
theorem IsLexeme.exists_cons (h : IsLexeme token lexeme) :
    ∃ c u, lexeme = c :: u ∧ isBlank c = false := by
  cases h with
  | float parts _ =>
    obtain ⟨c, u, heq, hc⟩ := parts.startsNumber
    exact ⟨c, u, heq, hc.isBlank_eq_false⟩
  | int parts _ =>
    obtain ⟨c, u, heq, hc⟩ := parts.startsNumber
    exact ⟨c, u, heq, hc.isBlank_eq_false⟩
  | name start continues _ _ _ =>
    have hall := forall_continuesName start continues
    exact ⟨_, _, rfl, isBlank_eq_false_of_continuesName (hall _ (by simp))⟩
  | mark m => exact ⟨_, _, rfl, by cases m <;> rfl⟩
  | string _ => exact ⟨_, _, rfl, rfl⟩

theorem IsLexeme.ne_nil (h : IsLexeme token lexeme) : lexeme ≠ [] := by
  obtain ⟨c, u, rfl, -⟩ := h.exists_cons
  exact List.cons_ne_nil c u

theorem trimEnd_append_of_forall {t u : Text} (hne : u ≠ []) (hu : ∀ c ∈ u, isBlank c = false) :
    trimEnd (t ++ u) = t ++ u := by
  obtain ⟨v, c, rfl⟩ : ∃ v c, u = v ++ [c] :=
    ⟨u.dropLast, u.getLast hne, (List.dropLast_concat_getLast hne).symm⟩
  rw [← List.append_assoc, trimEnd_concat (hu c (by simp))]

/-- A lexeme does not end with a blank. -/
theorem IsLexeme.trimEnd_eq (h : IsLexeme token lexeme) : trimEnd lexeme = lexeme := by
  cases h with
  | @float sign whole fraction parts _ =>
    have hdigits : ∀ c ∈ fraction, isBlank c = false := fun c hc =>
      isBlank_eq_false_of_isDigit (parts.isDigits_fraction c hc)
    simpa using trimEnd_append_of_forall (t := sign ++ whole ++ ['.']) parts.fraction_ne_nil hdigits
  | int parts _ =>
    exact trimEnd_append_of_forall parts.ne_nil fun c hc =>
      isBlank_eq_false_of_isDigit (parts.isDigits c hc)
  | @name c run start continues _ _ _ =>
    have hall := forall_continuesName start continues
    exact trimEnd_append_of_forall (t := []) (List.cons_ne_nil c run) fun d hd =>
      isBlank_eq_false_of_continuesName (hall d hd)
  | mark m => cases m <;> rfl
  | @string body content _ => exact trimEnd_concat (t := '"' :: body) rfl

theorem IsLexeme.trimEnd_append (h : IsLexeme token lexeme) (tail : Text) :
    trimEnd (lexeme ++ tail) = lexeme ++ trimEnd tail := by
  rw [Text.trimEnd_append]
  split
  · rename_i hnil
    rw [hnil, List.append_nil, h.trimEnd_eq]
  · rfl

/-- Only a name is its own lexeme. -/
theorem nameToken_eq_name {run n : Text} (h : nameToken run = .name n) : run = n := by
  unfold nameToken at h
  split at h
  · cases h
  · exact Token.name.inj h

theorem IsLexeme.eq_of_name {n : Text} (h : IsLexeme (.name n) lexeme) : lexeme = n := by
  generalize htoken : Token.name n = token at h
  cases h with
  | name _ _ _ _ _ => exact nameToken_eq_name htoken.symm
  | float => cases htoken
  | int => cases htoken
  | mark => cases htoken
  | string => cases htoken

/-! ## Reading a lexeme by itself -/

theorem read_cons_of_ne_slash {c : Char} (h : c ≠ '/') (t : Text) :
    read (c :: t) = ((plain (c :: t)).or (quotation (c :: t))).getD (.fault .unexpected) := by
  have hblock : blockComment (c :: t) = none := by
    rw [blockComment_eq_none_iff]
    rintro body heq
    exact absurd (List.cons.inj heq).1 h
  have hline : lineComment (c :: t) = none := by
    unfold lineComment
    split
    · rename_i heq
      exact absurd (List.cons.inj heq).1 h
    · rfl
  rw [read_eq, hblock, hline]
  rfl

theorem plain_quote (t : Text) : plain ('"' :: t) = none := rfl

/-- A lexeme by itself is read as its token. -/
theorem IsLexeme.read_eq (h : IsLexeme token lexeme) : read lexeme = .token token [] := by
  cases h with
  | @float sign whole fraction parts finite =>
    obtain ⟨c, u, heq, hc⟩ := parts.startsNumber
    have hfloat := float_of_parts parts
    rw [List.append_nil, floatReading, if_pos finite] at hfloat
    rw [heq] at hfloat ⊢
    rw [read_cons_of_ne_slash hc.ne_slash, plain, hfloat]
    rfl
  | @int sign digits parts fit =>
    obtain ⟨c, u, heq, hc⟩ := parts.startsNumber
    have hfloat := float_eq_none_of_not_mem (not_mem_of_intParts parts)
    have hint := int_of_parts parts
    rw [List.append_nil, intReading, if_pos fit] at hint
    rw [heq] at hfloat hint ⊢
    rw [read_cons_of_ne_slash hc.ne_slash, plain, hfloat, hint]
    rfl
  | @name c run start continues notBlock notLine notInt =>
    have hall := forall_continuesName start continues
    have hfloat := float_eq_none_of_not_mem (not_mem_of_continuesName hall)
    have hname : Lexeme.name (c :: (run ++ [])) = some (.token (nameToken (c :: run)) []) :=
      name_of_run start continues rfl
    rw [List.append_nil] at hname
    rw [Lexeme.read_eq, notBlock, notLine, plain, hfloat, notInt, hname]
    rfl
  | mark m => cases m <;> rfl
  | string quotes =>
    rw [read_cons_of_ne_slash (by decide), plain_quote, quotation_of_quotes quotes rfl]
    rfl

end Lexicon.Lexeme
