import Lexicon.Lexeme.Cutting
import Lexicon.Proofs.Closings
import Lexicon.Proofs.Numerals
import Lexicon.Proofs.Quotations

/-!
# Cuts at byte offsets

The rules that cut a text at byte offsets are never refused a cut, and give what the rules of
reading give (`rules_eq`, `read_eq`).

Every offset a rule works out is the size of a first part of the text, and a text can always be
cut behind a first part.  The parts are a sign, a run of digits, what comes before a pair that
closes a comment, the rest of a line, the run of a name, and what comes up to a quote.

The digits are counted among the bytes, where the end of a character cannot be seen.  The count
is a size all the same.  The first byte of a character is a digit only if the character is one,
so the count stops where a character starts (`digitsSize_eq`).
-/

namespace Lexicon

/-! ## Offsets in a text -/

namespace Text

variable {c : Char} {t : Text}

/-- A text can be cut behind a first part. -/
theorem dropBytes?_append (a b : Text) : dropBytes? a.byteSize (a ++ b) = some b := by
  rw [dropBytes?, splitBytes?_append]
  rfl

/-- Inside a character there is no cut. -/
example : dropBytes? 1 ['é', '1'] = none := by decide

/-- A text can be cut behind what has been found in it. -/
theorem dropBytes?_behind (front found rest : Text) :
    dropBytes? (front.byteSize + found.byteSize) (front ++ (found ++ rest)) = some rest := by
  rw [← byteSize_append, ← List.append_assoc, dropBytes?_append]

/-- A text can be cut behind a run. -/
theorem splitBytes?_run (p : Char → Bool) (t : Text) :
    splitBytes? (byteSize (t.takeWhile p)) t = some (t.takeWhile p, t.dropWhile p) := by
  have hcut := splitBytes?_append (t.takeWhile p) (t.dropWhile p)
  rwa [List.takeWhile_append_dropWhile] at hcut

theorem dropBytes?_run (p : Char → Bool) (t : Text) :
    dropBytes? (byteSize (t.takeWhile p)) t = some (t.dropWhile p) := by
  rw [dropBytes?, splitBytes?_run]
  rfl

/-- The first character after the first one that is not in a class ends a run. -/
theorem find?_indexed (p : Char → Bool) (offset : Nat) (t : Text) :
    (((indexed offset t).find? fun entry => !p entry.2).map (·.1)).getD (offset + t.byteSize) =
      offset + byteSize (t.takeWhile p) := by
  induction t generalizing offset with
  | nil => rfl
  | cons c t ih =>
    cases hc : p c with
    | true =>
      rw [indexed, List.find?_cons_of_neg (by simp [hc]), List.takeWhile_cons_of_pos hc,
        byteSize_cons, byteSize_cons, ← Nat.add_assoc, ← Nat.add_assoc]
      exact ih (offset + c.utf8Size)
    | false =>
      rw [indexed, List.find?_cons_of_pos (by simp [hc]), List.takeWhile_cons_of_neg (by simp [hc])]
      rfl

/-- A line goes up to its line feed, or to the end. -/
theorem offsetOf?_newline (t : Text) :
    (offsetOf? ['\n'] t).getD t.byteSize = byteSize (t.takeWhile (· != '\n')) := by
  induction t with
  | nil => rfl
  | cons c t ih =>
    by_cases hc : c = '\n'
    · subst hc
      rfl
    · have hpattern : List.isPrefixOf ['\n'] (c :: t) = false := by simp [List.isPrefixOf, Ne.symm hc]
      rw [offsetOf?, hpattern, List.takeWhile_cons_of_pos (by simp [hc]), byteSize_cons,
        byteSize_cons, ← ih]
      cases offsetOf? ['\n'] t with
      | none => rfl
      | some n => exact Nat.add_comm n _

/-! ## Digits among the bytes -/

theorem isDigit_eq (c : Char) : c.isDigit = decide (48 ≤ c.val.toNat ∧ c.val.toNat ≤ 57) := by
  simp only [Char.isDigit, ge_iff_le, UInt32.le_iff_toNat_le, Bool.decide_and]
  rfl

theorem isDigitByte_ofNat {n : Nat} (h : n < 256) :
    isDigitByte (UInt8.ofNat n) = decide (48 ≤ n ∧ n ≤ 57) := by
  have hn : (UInt8.ofNat n).toNat = n := UInt8.toNat_ofNat_of_lt' h
  simp only [isDigitByte, UInt8.le_iff_toNat_le, hn, Bool.decide_and]
  rfl

theorem utf8Size_of_isDigit (h : c.isDigit = true) : c.utf8Size = 1 := by
  rw [isDigit_eq, decide_eq_true_eq] at h
  rw [Char.utf8Size_eq_one_iff, UInt32.le_iff_toNat_le]
  exact Nat.le_trans h.2 (by decide)

/-- The first byte of a character is a digit if the character is one, and not otherwise. -/
theorem exists_first_byte (c : Char) :
    ∃ b bs, String.utf8EncodeChar c = b :: bs ∧ isDigitByte b = c.isDigit := by
  rw [isDigit_eq]
  simp only [String.utf8EncodeChar]
  split
  · exact ⟨_, _, rfl, isDigitByte_ofNat (by omega)⟩
  · -- a character of several bytes starts with a byte above the digits
    have hc : ¬ (48 ≤ c.val.toNat ∧ c.val.toNat ≤ 57) := by omega
    have hlead : ∀ n, 192 ≤ n → n < 256 → isDigitByte (UInt8.ofNat n) = false := by
      intro n hle hlt
      rw [isDigitByte_ofNat hlt]
      exact decide_eq_false (by omega)
    rw [decide_eq_false hc]
    split
    · exact ⟨_, _, rfl, hlead _ (by omega) (by omega)⟩
    · split
      · exact ⟨_, _, rfl, hlead _ (by omega) (by omega)⟩
      · exact ⟨_, _, rfl, hlead _ (by omega) (by omega)⟩

/-- As many bytes are digits as the run of digits has. -/
theorem digitsSize_eq (t : Text) : digitsSize t = byteSize (t.takeWhile Char.isDigit) := by
  induction t with
  | nil => rfl
  | cons c t ih =>
    obtain ⟨b, bs, hbytes, hb⟩ := exists_first_byte c
    have hcons : bytes (c :: t) = b :: (bs ++ bytes t) := by simp [bytes, hbytes]
    cases hc : c.isDigit with
    | true =>
      have hsize := utf8Size_of_isDigit hc
      obtain rfl : bs = [] := by
        rw [← String.length_utf8EncodeChar, hbytes] at hsize
        simpa using hsize
      rw [digitsSize, hcons, List.takeWhile_cons_of_pos (by rw [hb, hc]), List.nil_append,
        List.takeWhile_cons_of_pos hc, List.length_cons, byteSize_cons, hsize, ← ih, digitsSize,
        Nat.add_comm]
    | false =>
      rw [digitsSize, hcons, List.takeWhile_cons_of_neg (by simp [hb, hc]),
        List.takeWhile_cons_of_neg (by simp [hc])]
      rfl

theorem byteSize_eq_zero_iff : byteSize t = 0 ↔ t = [] := by
  cases t with
  | nil => simp
  | cons c t =>
    have hpos := c.utf8Size_pos
    simp only [byteSize_cons, reduceCtorEq, iff_false]
    omega

end Text

namespace Lexeme.Cutting

open Text

variable {text body rest sign whole digits : Text}

/-! ## Comments -/

/-- Where no pair stands, the first one is looked for behind the character. -/
theorem offsetOf?_cons (c : Char) (t : Text) (h : ∀ rest, c = '*' → t = '/' :: rest → False) :
    offsetOf? ['*', '/'] (c :: t) = (offsetOf? ['*', '/'] t).map (· + c.utf8Size) := by
  have hpattern : List.isPrefixOf ['*', '/'] (c :: t) = false := by
    rw [Bool.eq_false_iff]
    intro hprefix
    obtain ⟨rest, hrest⟩ := List.isPrefixOf_iff_prefix.1 hprefix
    obtain ⟨rfl, rfl⟩ := List.cons.inj hrest
    exact h rest rfl rfl
  rw [offsetOf?, hpattern]
  rfl

/-- The first pair is found by its offset. -/
theorem offsetOf?_of_afterClose? (h : afterClose? body = some rest) :
    ∃ front, body = front ++ '*' :: '/' :: rest ∧
      offsetOf? ['*', '/'] body = some front.byteSize := by
  fun_induction afterClose? body with
  | case1 => cases h
  | case2 r =>
    obtain rfl := Option.some.inj h
    exact ⟨[], rfl, rfl⟩
  | case3 c t hpair ih =>
    obtain ⟨front, rfl, hoffset⟩ := ih h
    refine ⟨c :: front, rfl, ?_⟩
    rw [offsetOf?_cons c _ hpair, hoffset, byteSize_cons, Nat.add_comm]
    rfl

theorem offsetOf?_of_afterClose?_eq_none (h : afterClose? body = none) :
    offsetOf? ['*', '/'] body = none := by
  fun_induction afterClose? body with
  | case1 => rfl
  | case2 => cases h
  | case3 c t hpair ih => rw [offsetOf?_cons c t hpair, ih h]; rfl

theorem blockComment_eq (text : Text) : blockComment text = some (Lexeme.blockComment text) := by
  fun_cases Lexeme.blockComment text with
  | case1 body =>
    rw [blockComment]
    cases h : afterClose? body with
    | none =>
      rw [offsetOf?_of_afterClose?_eq_none h]
      rfl
    | some rest =>
      obtain ⟨front, rfl, hoffset⟩ := offsetOf?_of_afterClose? h
      have hcut : dropBytes? (front.byteSize + 2) (front ++ '*' :: '/' :: rest) = some rest :=
        dropBytes?_behind front ['*', '/'] rest
      simp only [hoffset, hcut, Option.bind_eq_bind, Option.bind_some]
      rfl
  | case2 t hother =>
    rw [blockComment]
    exact hother

theorem lineComment_eq (text : Text) : lineComment text = some (Lexeme.lineComment text) := by
  fun_cases Lexeme.lineComment text with
  | case1 body =>
    rw [lineComment, offsetOf?_newline, dropBytes?_run]
    rfl
  | case2 t hother => rw [lineComment]; exact hother

/-! ## Numbers -/

theorem signSize_eq (text : Text) : signSize text = byteSize (splitSign text).1 := by
  fun_cases splitSign text with
  | case1 => rfl
  | case2 => rfl
  | case3 t hplus hminus =>
    rw [signSize]
    · rfl
    · exact hplus
    · exact hminus

/-- The value of a whole number, from its literal. -/
theorem wholeValue_append (hsign : IsSign sign) (hdigits : IsDigits digits) :
    wholeValue (sign ++ digits) = intValue sign digits := by
  have hunsigned : IsUnsigned (digits ++ []) := hdigits.isUnsigned_append (by simp [IsUnsigned])
  rw [List.append_nil] at hunsigned
  rw [wholeValue, hsign.splitSign_eq hunsigned]

/-- The value of a number with a point, from its literal. -/
theorem pointedValue_append (hsign : IsSign sign) (hwhole : IsDigits whole) (fraction : Text) :
    pointedValue (sign ++ (whole ++ '.' :: fraction)) = floatValue sign whole fraction := by
  have hunsigned : IsUnsigned (whole ++ '.' :: fraction) :=
    hwhole.isUnsigned_append (by simp [IsUnsigned])
  have hstops : Stops Char.isDigit ('.' :: fraction) := stops_cons.2 rfl
  obtain ⟨htake, hdrop⟩ := hstops.split_append hwhole
  rw [pointedValue, hsign.splitSign_eq hunsigned]
  simp only [htake, hdrop]
  rfl

/-- Every text is a sign, some digits, and a text that goes on with something else. -/
theorem exists_signed_digits (text : Text) :
    ∃ sign digits after, sign ++ (digits ++ after) = text ∧
      splitSign text = (sign, digits ++ after) ∧ IsSign sign ∧ IsDigits digits ∧
      Stops Char.isDigit after := by
  refine ⟨(splitSign text).1, (splitSign text).2.takeWhile Char.isDigit,
    (splitSign text).2.dropWhile Char.isDigit, ?_, ?_, isSign_splitSign text,
    forall_mem_takeWhile _ _, stops_dropWhile _ _⟩
  · rw [List.takeWhile_append_dropWhile, splitSign_append]
  · rw [List.takeWhile_append_dropWhile]

/-- Nothing is read for either of two reasons, whether they are looked at together or not. -/
theorem unless_unless {p q : Prop} [Decidable p] [Decidable q] {cut : Option (Option Reading)}
    {reading? : Option Reading} (h : cut = some reading?) :
    (if p then some none else if q then some none else cut) =
      some (if p ∨ q then none else reading?) := by
  by_cases hp : p
  · rw [if_pos hp, if_pos (Or.inl hp)]
  · by_cases hq : q
    · rw [if_neg hp, if_pos hq, if_pos (Or.inr hq)]
    · rw [if_neg hp, if_neg hq, if_neg (not_or.2 ⟨hp, hq⟩), h]

theorem int_eq (text : Text) : int text = some (Lexeme.int text) := by
  obtain ⟨sign, digits, after, rfl, hsplit, hsign, hdigits, hstops⟩ := exists_signed_digits text
  obtain ⟨htake, hdrop⟩ := hstops.split_append hdigits
  have hcut := splitBytes?_append (sign ++ digits) after
  rw [List.append_assoc, byteSize_append] at hcut
  simp only [int, Lexeme.int, signSize_eq, digitsSize_eq, hsplit, dropBytes?_append, htake, hdrop,
    hcut, wholeValue_append hsign hdigits, Option.bind_eq_bind, Option.bind_some,
    byteSize_eq_zero_iff, Bool.or_eq_true, List.isEmpty_iff]
  exact unless_unless (by split <;> rfl)

/-- A literal with a point ends behind the digits after the point. -/
theorem splitBytes?_literal (sign whole tail : Text) :
    splitBytes? (sign.byteSize + whole.byteSize + 1 + byteSize (tail.takeWhile Char.isDigit))
        (sign ++ (whole ++ '.' :: tail)) =
      some (sign ++ (whole ++ '.' :: tail.takeWhile Char.isDigit),
        tail.dropWhile Char.isDigit) := by
  have hsize : byteSize (sign ++ (whole ++ '.' :: tail.takeWhile Char.isDigit)) =
      sign.byteSize + whole.byteSize + 1 + byteSize (tail.takeWhile Char.isDigit) := by
    have hdot : Char.utf8Size '.' = 1 := rfl
    rw [byteSize_append, byteSize_append, byteSize_cons, hdot]
    omega
  have hcut := splitBytes?_append (sign ++ (whole ++ '.' :: tail.takeWhile Char.isDigit))
    (tail.dropWhile Char.isDigit)
  rwa [List.append_assoc, List.append_assoc, List.cons_append,
    List.takeWhile_append_dropWhile, hsize] at hcut

/-- The point is looked for behind the digits, and the literal ends behind the digits after it. -/
theorem float_eq (text : Text) : float text = some (Lexeme.float text) := by
  obtain ⟨sign, whole, after, rfl, hsplit, hsign, hwhole, hstops⟩ := exists_signed_digits text
  obtain ⟨htake, hdrop⟩ := hstops.split_append hwhole
  have hpoint := dropBytes?_append (sign ++ whole) after
  rw [List.append_assoc, byteSize_append] at hpoint
  simp only [float, Lexeme.float, signSize_eq, digitsSize_eq, hsplit, dropBytes?_append, htake,
    hdrop, hpoint, Option.bind_eq_bind, Option.bind_some]
  cases after with
  | nil => rfl
  | cons c tail =>
    by_cases hc : c = '.'
    · subst hc
      simp only [splitBytes?_literal, pointedValue_append hsign hwhole, Option.bind_some,
        byteSize_eq_zero_iff, Bool.or_eq_true, List.isEmpty_iff, List.append_assoc]
      exact unless_unless (by split <;> rfl)
    · have hother : ∀ u, c :: tail ≠ '.' :: u := fun u h => hc (List.cons.inj h).1
      split
      · rename_i u hu
        exact absurd hu (hother u)
      · split
        · rename_i u hu
          exact absurd hu (hother u)
        · rfl

/-! ## Names and marks -/

theorem name_eq (text : Text) : name text = some (Lexeme.name text) := by
  cases text with
  | nil => rfl
  | cons c t =>
    have hstop := find?_indexed continuesName (0 + c.utf8Size) t
    rw [Nat.zero_add] at hstop
    have hcut := splitBytes?_append (c :: t.takeWhile continuesName) (t.dropWhile continuesName)
    rw [List.cons_append, List.takeWhile_append_dropWhile, byteSize_cons] at hcut
    simp only [name, indexed, Nat.zero_add, byteSize_cons, hstop, hcut, Lexeme.name]
    cases startsName c with
    | false => rfl
    | true =>
      cases hrest : atBoundary (t.dropWhile continuesName) with
      | false => simp [hrest]
      | true => simp [hrest]

theorem mark_eq (text : Text) : mark text = some (Lexeme.mark text) := by
  cases text with
  | nil => rfl
  | cons c t =>
    rw [mark, Lexeme.mark]
    cases Mark.ofChar? c with
    | none => rfl
    | some m =>
      have hcut : dropBytes? c.utf8Size (c :: t) = some t := dropBytes?_append [c] t
      simp only [hcut]
      rfl

/-! ## String literals -/

theorem quotationLoop_plain {offset : Nat} {others : List (Nat × Char)} {c : Char}
    (hslash : c ≠ '\\') (hquote : c ≠ '"') (body content : Text) :
    quotationLoop body ((offset, c) :: others) .plain content =
      quotationLoop body others .plain (content ++ [c]) := by
  rw [quotationLoop]
  · exact hslash
  · exact hquote

/-- A backslash takes the character behind it. -/
theorem quotationLoop_escape (body content : Text) (offset offset' : Nat) (c : Char)
    (others : List (Nat × Char)) :
    quotationLoop body ((offset, '\\') :: (offset', c) :: others) .plain content =
      quotationLoop body others .plain (content ++ [unescape c]) := by
  rw [quotationLoop, quotationLoop]

/-- The quote that ends a body is where its offset says. -/
theorem quotationLoop_quote (front rest content : Text) (others : List (Nat × Char)) :
    quotationLoop (front ++ '"' :: rest) ((front.byteSize, '"') :: others) .plain content =
      some (if atBoundary rest then .ok (content, rest) else .error .unseparated) := by
  have hcut : dropBytes? (front.byteSize + 1) (front ++ '"' :: rest) = some rest :=
    dropBytes?_behind front ['"'] rest
  rw [quotationLoop]
  simp only [hcut, Option.bind_eq_bind, Option.bind_some]
  split <;> rfl

/-- The loop goes on behind what has been passed, and puts what it finds behind what it has. -/
theorem quotationLoop_eq (front body content : Text) :
    quotationLoop (front ++ body) (indexed front.byteSize body) .plain content =
      some ((Lexeme.quotationBody body).map fun found => (content ++ found.1, found.2)) := by
  fun_induction Lexeme.quotationBody body generalizing front content with
  | case1 => rfl
  | case2 rest hrest =>
    rw [indexed, quotationLoop_quote, if_pos hrest]
    simp [Except.map]
  | case3 rest hrest =>
    rw [indexed, quotationLoop_quote, if_neg hrest]
    rfl
  | case4 => rfl
  | case5 c t ih =>
    have hloop := ih (front ++ ['\\', c]) (content ++ [unescape c])
    have hsize : (front ++ ['\\', c]).byteSize = front.byteSize + 1 + c.utf8Size := by
      rw [byteSize_append, Nat.add_assoc]
      rfl
    rw [List.append_assoc, hsize] at hloop
    rw [indexed, indexed, quotationLoop_escape]
    refine hloop.trans ?_
    cases Lexeme.quotationBody t with
    | ok found => simp [Except.map]
    | error cause => rfl
  | case6 c t hquote hlast hslash ih =>
    have hloop := ih (front ++ [c]) (content ++ [c])
    have hescape : c ≠ '\\' := by
      cases t with
      | nil => exact fun hc => hlast hc rfl
      | cons d t => exact fun hc => hslash d t hc rfl
    rw [indexed, quotationLoop_plain hescape hquote]
    rw [List.append_assoc, byteSize_append] at hloop
    refine hloop.trans ?_
    cases Lexeme.quotationBody t with
    | ok found => simp [Except.map]
    | error cause => rfl

theorem quotationBody_eq (body : Text) :
    quotationBody body = some (Lexeme.quotationBody body) := by
  have hloop := quotationLoop_eq [] body []
  refine hloop.trans ?_
  cases Lexeme.quotationBody body with
  | ok found => rfl
  | error cause => rfl

theorem quotation_eq (text : Text) : quotation text = some (Lexeme.quotation text) := by
  fun_cases Lexeme.quotation text with
  | case1 body =>
    rw [quotation, quotationBody_eq]
    cases Lexeme.quotationBody body with
    | ok found => rfl
    | error cause => rfl
  | case2 t hother =>
    rw [quotation]
    exact hother

/-! ## The order of the rules -/

/-- A rule of reading as a rule that is never refused a cut. -/
def unrefused (rule : String × Rule) : String × CuttingRule :=
  (rule.1, fun text => some (rule.2 text))

theorem rules_eq : rules = Lexeme.rules.map unrefused := by
  rw [rules, funext blockComment_eq, funext lineComment_eq, funext float_eq, funext int_eq,
    funext name_eq, funext mark_eq, funext quotation_eq]
  rfl

theorem findSomeM?_unrefused (plain : List (String × Rule)) (text : Text) :
    (plain.map unrefused).findSomeM? (fun rule => rule.2 text) =
      some (plain.findSome? fun rule => rule.2 text) := by
  induction plain with
  | nil => rfl
  | cons rule plain ih =>
    have hrule : (unrefused rule).2 text = some (rule.2 text) := rfl
    rw [List.map_cons, List.findSomeM?, List.findSome?_cons, ih, hrule]
    cases rule.2 text with
    | none => rfl
    | some reading => rfl

theorem read_eq (text : Text) : read text = some (Lexeme.read text) := by
  rw [read, rules_eq, findSomeM?_unrefused]
  rfl

end Lexeme.Cutting

end Lexicon
