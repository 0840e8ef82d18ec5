import Lexicon.Proofs.Lexemes
import Mathlib.Data.List.Pairwise

/-!
# The first token is the longest

Several rules can give a token for the same text, as for a number with a point, which also
starts with a whole number or with a name or a mark.  The first rule in order decides.  This is
the same as taking the longest token (`takesLongest`).

Each rule is compared with those behind it (`rules_pairwise`).  A number with a point outreaches
whatever ends in front of its point.  The other rules look for different first characters, with
one exception: a sign starts both whole numbers and names, and in front of digits these two take
the same sign and the same digits.
-/

namespace Lexicon.Lexeme

open Text

variable {text lexeme rest r s : Text} {k l : Token Text} {a b : String × Rule}

/-! ## First characters -/

/-- Whether a rule gives tokens only for texts that start with such a character. -/
def StartsWith (rule : Rule) (p : Char → Prop) : Prop :=
  ∀ text k r, rule text = some (.token k r) → ∃ c t, text = c :: t ∧ p c

theorem continuesName_of_isDigit {c : Char} (h : c.isDigit = true) : continuesName c = true := by
  rw [continuesName, isBoundary_eq_false_of_isDigit h, bne_iff_ne.2 (isDigit_ne h (by decide))]
  rfl

theorem IntParts.forall_continuesName {sign digits : Text} (h : IntParts sign digits rest) :
    ∀ c ∈ sign ++ digits, continuesName c = true := by
  intro c hc
  rcases List.mem_append.1 hc with hc | hc
  · rcases h.isSign with rfl | rfl | rfl
    · cases hc
    · rw [List.mem_singleton.1 hc]
      decide
    · rw [List.mem_singleton.1 hc]
      decide
  · exact continuesName_of_isDigit (h.isDigits c hc)

theorem blockComment_starts : StartsWith blockComment fun _ => False := by
  intro text k r h
  obtain ⟨_, _, -, -, hr⟩ := exists_of_blockComment h
  cases hr

theorem lineComment_starts : StartsWith lineComment fun _ => False := by
  intro text k r h
  obtain ⟨_, _, -, -, -, hr⟩ := exists_of_lineComment h
  cases hr

theorem float_starts : StartsWith float StartsNumber := by
  intro text k r h
  obtain ⟨sign, whole, fraction, parts, rfl, -, -⟩ := exists_parts_of_float_token h
  obtain ⟨c, u, heq, hc⟩ := parts.startsNumber
  refine ⟨c, u ++ r, ?_, hc⟩
  calc sign ++ (whole ++ '.' :: (fraction ++ r))
    _ = sign ++ (whole ++ '.' :: fraction) ++ r := by simp
    _ = c :: (u ++ r) := congrArg (· ++ r) heq

theorem int_starts : StartsWith int fun c => continuesName c = true := by
  intro text k r h
  obtain ⟨sign, digits, parts, rfl, -, -⟩ := exists_parts_of_int_token h
  obtain ⟨c, u, heq, -⟩ := parts.startsNumber
  have hall := parts.forall_continuesName
  rw [heq] at hall
  refine ⟨c, u ++ r, ?_, hall c (List.mem_cons_self ..)⟩
  rw [← List.append_assoc, heq, List.cons_append]

theorem name_starts : StartsWith name fun c => continuesName c = true := by
  intro text k r h
  obtain ⟨c, run, rest, rfl, hstart, hrun, -, -⟩ := exists_of_name h
  exact ⟨c, run ++ rest, rfl, forall_continuesName hstart hrun c (List.mem_cons_self ..)⟩

theorem mark_starts : StartsWith mark fun c => ∃ m : Mark, c = m.char := by
  intro text k r h
  obtain ⟨m, rest, rfl, -⟩ := exists_of_mark h
  exact ⟨m.char, rest, rfl, m, rfl⟩

theorem quotation_starts : StartsWith quotation fun c => c = '"' := by
  intro text k r h
  obtain ⟨body, content, rfl, -⟩ := exists_quotes_of_quotation h
  exact ⟨'"', _, rfl, rfl⟩

/-! ## Two rules -/

/-- Whether a text starts with a whole number that has a sign and fits, in front of a rest. -/
def SignedAt (text rest : Text) : Prop :=
  ∃ sign digits, IntParts sign digits rest ∧ sign ≠ [] ∧ fits (intValue sign digits) = true ∧
    text = sign ++ (digits ++ rest)

/-- Whether, where both give a token, the first of two rules takes more than the second, or they
are the rules for whole numbers and for names and take the same signed digits. -/
def Precedes (a b : String × Rule) : Prop :=
  ∀ text k l r s, a.2 text = some (.token k r) → b.2 text = some (.token l s) →
    r.byteSize < s.byteSize ∨
      a = ("int", int) ∧ b = ("identifier", name) ∧ r = s ∧ SignedAt text r

/-- Rules that look for different first characters never both give a token. -/
theorem precedes_of_starts {p q : Char → Prop} (ha : StartsWith a.2 p) (hb : StartsWith b.2 q)
    (hdisjoint : ∀ c, p c → ¬q c) : Precedes a b := by
  intro text k l r s hk hl
  obtain ⟨c, t, rfl, hc⟩ := ha text k r hk
  obtain ⟨d, u, heq, hd⟩ := hb _ l s hl
  obtain rfl := (List.cons.inj heq).1
  exact absurd hd (hdisjoint c hc)

theorem precedes_of_never (ha : StartsWith a.2 fun _ => False) (b : String × Rule) :
    Precedes a b := by
  intro text k l r s hk
  obtain ⟨_, _, -, hc⟩ := ha text k r hk
  exact hc.elim

/-! ## Numbers with a point -/

/-- A lexeme without a point leaves the point and what follows it. -/
theorem byteSize_lt_of_float {sign whole fraction : Text}
    (heq : sign ++ (whole ++ '.' :: (fraction ++ rest)) = lexeme ++ s) (hpoint : '.' ∉ lexeme) :
    rest.byteSize < s.byteSize := by
  have hbehind : ∃ u, s = u ++ '.' :: (fraction ++ rest) := by
    rw [← List.append_assoc] at heq
    rcases List.append_eq_append_iff.1 heq with ⟨u, hlexeme, hs⟩ | ⟨u, -, hs⟩
    · cases u with
      | nil => exact ⟨[], hs.symm⟩
      | cons c u =>
        obtain rfl := (List.cons.inj hs).1
        exact absurd (by simp [hlexeme]) hpoint
    · exact ⟨u, hs⟩
  obtain ⟨u, rfl⟩ := hbehind
  have hdot := ('.' : Char).utf8Size_pos
  simp only [byteSize_append, byteSize_cons]
  omega

theorem float_precedes_int : Precedes ("float", float) ("int", int) := by
  intro text k l r s hk hl
  obtain ⟨sign, whole, fraction, parts, rfl, -, -⟩ := exists_parts_of_float_token hk
  obtain ⟨sign', digits, parts', heq, -, -⟩ := exists_parts_of_int_token hl
  rw [← List.append_assoc sign'] at heq
  exact Or.inl (byteSize_lt_of_float heq (not_mem_of_intParts parts'))

theorem float_precedes_name : Precedes ("float", float) ("identifier", name) := by
  intro text k l r s hk hl
  obtain ⟨sign, whole, fraction, parts, rfl, -, -⟩ := exists_parts_of_float_token hk
  obtain ⟨c, run, rest', heq, hstart, hrun, -, hname⟩ := exists_of_name hl
  obtain ⟨-, rfl⟩ := Reading.token.inj hname
  have hpoint := not_mem_of_continuesName (forall_continuesName hstart hrun)
  rw [← List.cons_append] at heq
  exact Or.inl (byteSize_lt_of_float heq hpoint)

theorem float_precedes_mark : Precedes ("float", float) ("punctuation", mark) := by
  intro text k l r s hk hl
  obtain ⟨sign, whole, fraction, parts, rfl, -, -⟩ := exists_parts_of_float_token hk
  obtain ⟨m, rest', heq, hmark⟩ := exists_of_mark hl
  obtain ⟨-, rfl⟩ := Reading.token.inj hmark
  obtain ⟨d, fraction, rfl⟩ := List.exists_cons_of_ne_nil parts.fraction_ne_nil
  -- a mark is one byte, and the point and a digit are two
  have hsize := congrArg byteSize heq
  have hchar : m.char.utf8Size = 1 := by cases m <;> rfl
  have hpoint := ('.' : Char).utf8Size_pos
  have hdigit := d.utf8Size_pos
  simp only [byteSize_append, byteSize_cons] at hsize
  left
  omega

/-! ## Whole numbers and names -/

theorem int_precedes_name : Precedes ("int", int) ("identifier", name) := by
  intro text k l r s hk hl
  obtain ⟨sign, digits, parts, rfl, hfits, -⟩ := exists_parts_of_int_token hk
  obtain ⟨c, run, rest', heq, hstart, hrun, hboundary, hname⟩ := exists_of_name hl
  obtain ⟨-, rfl⟩ := Reading.token.inj hname
  have hall := forall_continuesName hstart hrun
  -- both take all characters up to the first that does not continue a name
  have hrest : r = s := by
    have hnumber := (stops_continuesName_of_atBoundary parts.atBoundary).split_append
      parts.forall_continuesName
    have hlexeme := (stops_continuesName_of_atBoundary hboundary).split_append hall
    rw [← hnumber.2, ← hlexeme.2, List.append_assoc, heq, List.cons_append]
  have hsign : sign ≠ [] := by
    rintro rfl
    obtain ⟨d, digits, rfl⟩ := List.exists_cons_of_ne_nil parts.ne_nil
    obtain rfl : d = c := (List.cons.inj heq).1
    rw [startsName, parts.isDigits d (List.mem_cons_self ..)] at hstart
    cases hstart
  exact Or.inr ⟨rfl, rfl, hrest, sign, digits, parts, hsign, hfits, rfl⟩

/-- In front of digits that fit, a sign is taken with them by both rules. -/
theorem tied_iff :
    (∃ k l, int text = some (.token k rest) ∧ name text = some (.token l rest)) ↔
      SignedAt text rest := by
  constructor
  · rintro ⟨k, l, hk, hl⟩
    rcases int_precedes_name text k l rest rest hk hl with hlt | ⟨-, -, -, hsigned⟩
    · exact absurd hlt (Nat.lt_irrefl _)
    · exact hsigned
  · rintro ⟨sign, digits, parts, hsign, hfits, rfl⟩
    obtain ⟨c, hc, rfl⟩ : ∃ c, startsName c = true ∧ sign = [c] := by
      rcases parts.isSign with rfl | rfl | rfl
      · exact absurd rfl hsign
      · exact ⟨'+', by decide, rfl⟩
      · exact ⟨'-', by decide, rfl⟩
    have hrun : ∀ d ∈ digits, continuesName d = true := fun d hd =>
      continuesName_of_isDigit (parts.isDigits d hd)
    have hint := int_of_parts parts
    rw [intReading, if_pos hfits] at hint
    exact ⟨_, _, hint, name_of_run hc hrun parts.atBoundary⟩

/-! ## All rules -/

/-- In the order of the rules each one precedes those behind it. -/
theorem rules_pairwise : rules.Pairwise Precedes := by
  have hquote : ∀ c, continuesName c = true → c ≠ '"' := by
    rintro c hc rfl
    cases hc
  have hmark : ∀ c, continuesName c = true → ¬∃ m : Mark, c = m.char := by
    rintro _ hc ⟨m, rfl⟩
    cases m <;> cases hc
  have hmarkQuote : ∀ c, (∃ m : Mark, c = m.char) → c ≠ '"' := by
    rintro _ ⟨m, rfl⟩
    cases m <;> decide
  have hnumberQuote : ∀ c, StartsNumber c → c ≠ '"' := by
    rintro c hc rfl
    revert hc
    unfold StartsNumber
    decide
  refine .cons (fun b _ => precedes_of_never blockComment_starts b) ?_
  refine .cons (fun b _ => precedes_of_never lineComment_starts b) ?_
  simp only [List.pairwise_cons, List.forall_mem_cons, List.not_mem_nil, false_imp_iff,
    implies_true, and_true, List.Pairwise.nil]
  exact
    ⟨⟨float_precedes_int, float_precedes_name, float_precedes_mark,
        precedes_of_starts float_starts quotation_starts hnumberQuote⟩,
      ⟨int_precedes_name, precedes_of_starts int_starts mark_starts hmark,
        precedes_of_starts int_starts quotation_starts hquote⟩,
      ⟨precedes_of_starts name_starts mark_starts hmark,
        precedes_of_starts name_starts quotation_starts hquote⟩,
      precedes_of_starts mark_starts quotation_starts hmarkQuote⟩

/-- Among all tokens that the rules give for a text, the first one in order is the longest. -/
structure TakesLongest (text : Text) : Prop where
  /-- The token that is read leaves no more than that of any rule. -/
  longest : ∀ k rest, read text = .token k rest → ∀ rule ∈ rules, ∀ l r,
    rule.2 text = some (.token l r) → rest.byteSize ≤ r.byteSize
  /-- Two rules that leave equally much are those for whole numbers and for names, and they take
  the same signed digits. -/
  ties : ∀ a ∈ rules, ∀ b ∈ rules, a ≠ b → ∀ k l r s, a.2 text = some (.token k r) →
    b.2 text = some (.token l s) → r.byteSize = s.byteSize →
      (a = ("int", int) ∧ b = ("identifier", name) ∨ a = ("identifier", name) ∧ b = ("int", int)) ∧
        r = s ∧ SignedAt text r
  /-- These two take the same whenever a sign and digits that fit stand in front of a boundary. -/
  tied : ∀ rest, (∃ k l, int text = some (.token k rest) ∧ name text = some (.token l rest)) ↔
    SignedAt text rest

/-- Of two rules that give tokens one precedes the other. -/
theorem precedes_or_precedes (ha : a ∈ rules) (hb : b ∈ rules) (hne : a ≠ b) :
    Precedes a b ∨ Precedes b a := by
  have hsymm : Std.Symm fun a b => a ≠ b → Precedes a b ∨ Precedes b a :=
    ⟨fun _ _ h hne => (h hne.symm).symm⟩
  have hpairwise : rules.Pairwise fun a b => a ≠ b → Precedes a b ∨ Precedes b a :=
    rules_pairwise.imp fun h _ => Or.inl h
  exact hpairwise.forall_of_forall (fun _ _ hne => absurd rfl hne) ha hb hne

/-- The first rule that gives a token leaves no more than the others. -/
theorem byteSize_le_of_read (hread : read text = .token k rest) (hb : b ∈ rules)
    (hl : b.2 text = some (.token l r)) : rest.byteSize ≤ r.byteSize := by
  rw [read] at hread
  cases hfind : rules.findSome? fun rule => rule.2 text with
  | none =>
    rw [hfind] at hread
    cases hread
  | some reading =>
    rw [hfind] at hread
    obtain rfl : reading = .token k rest := hread
    obtain ⟨before, a, behind, hrules, hk, hbefore⟩ := List.findSome?_eq_some_iff.1 hfind
    have hpairwise := rules_pairwise
    rw [hrules] at hb hpairwise
    rcases List.mem_append.1 hb with hb | hb
    · rw [hbefore b hb] at hl
      cases hl
    · rcases List.mem_cons.1 hb with rfl | hb
      · rw [hk] at hl
        cases hl
        exact Nat.le_refl _
      · have hprecedes := (List.pairwise_cons.1 (List.pairwise_append.1 hpairwise).2.1).1 b hb
        rcases hprecedes text k l rest r hk hl with hlt | ⟨-, -, rfl, -⟩
        · exact Nat.le_of_lt hlt
        · exact Nat.le_refl _

/-- Trying the rules in order takes the longest token. -/
theorem takesLongest (text : Text) : TakesLongest text where
  longest _ _ hread _ hrule _ _ hl := byteSize_le_of_read hread hrule hl
  ties a ha b hb hne k l r s hk hl hsize := by
    rcases precedes_or_precedes ha hb hne with hab | hba
    · rcases hab text k l r s hk hl with hlt | ⟨rfl, rfl, hrest, hsigned⟩
      · exact absurd hsize (Nat.ne_of_lt hlt)
      · exact ⟨Or.inl ⟨rfl, rfl⟩, hrest, hsigned⟩
    · rcases hba text l k s r hl hk with hlt | ⟨rfl, rfl, rfl, hsigned⟩
      · exact absurd hsize.symm (Nat.ne_of_lt hlt)
      · exact ⟨Or.inr ⟨rfl, rfl⟩, rfl, hsigned⟩
  tied _ := tied_iff

end Lexicon.Lexeme
