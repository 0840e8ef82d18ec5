import Lexicon.Proofs.Extension

/-!
# Texts with spaces in them

`Spaced t t'` says that `t'` is `t` with a space in the place of some parts.  None of
the parts comes behind a character that is no boundary, so a run without boundaries that
is found in `t'` is found in `t`, and in front of the same character
(`Spaced.exists_run`).

This is enough for every rule.  One that declines a text declines it with spaces
(`Rule.Declines`), because what it would read there is in the first text as well.  In
particular no end of a block comment comes up (`Spaced.closings_le`).  And one that reads
a token reads it in front of the spaced rest (`Rule.Keeps`).  Both go from rule to rule
in the order in which they are tried, and so to reading (`read_of_spaced`).

A space at the end of a source is trimmed.  A token is read the same without the blanks
at the end (`read_of_append`).
-/

namespace Lexicon

open Text Lexeme

namespace Text

variable {t t' run : Text} {c : Char}

/-! ## Texts with spaces -/

/-- Whether the second text is the first one with a space in the place of some parts,
none of which comes behind a character that is no boundary. -/
inductive Spaced : Text → Text → Prop where
  /-- Nothing is left. -/
  | nil : Spaced [] []
  /-- A character stays. -/
  | cons {c : Char} {t t' : Text} (unchanged : isBoundary c = true ∨ t.head? = t'.head?)
      (spaced : Spaced t t') : Spaced (c :: t) (c :: t')
  /-- A space stands in the place of a part. -/
  | gap {t t' : Text} (part : Text) (spaced : Spaced t t') : Spaced (part ++ t) (' ' :: t')

theorem Spaced.refl (t : Text) : Spaced t t := by
  induction t with
  | nil => exact .nil
  | cons c t ih => exact .cons (Or.inr rfl) ih

theorem Spaced.append (h : Spaced t t') (hhead : t.head? = t'.head?) (u : Text) :
    Spaced (u ++ t) (u ++ t') := by
  induction u with
  | nil => exact h
  | cons c u ih =>
    have hnext : (u ++ t).head? = (u ++ t').head? := by
      rw [List.head?_append, List.head?_append, hhead]
    exact .cons (Or.inr hnext) ih

theorem atBoundary_congr (h : t.head? = t'.head?) : t.atBoundary = t'.atBoundary := by
  cases t with
  | nil => rw [List.head?_eq_none_iff.1 h.symm]
  | cons c t =>
    obtain ⟨u, rfl⟩ := List.head?_eq_some_iff.1 h.symm
    rfl

/-- A character that is no space has stayed. -/
theorem Spaced.exists_cons (h : Spaced t (c :: t')) (hc : c ≠ ' ') :
    ∃ u, t = c :: u ∧ Spaced u t' ∧ (isBoundary c = true ∨ u.head? = t'.head?) := by
  cases h with
  | cons unchanged spaced => exact ⟨_, rfl, spaced, unchanged⟩
  | gap part spaced => exact absurd rfl hc

/-- A run without boundaries has stayed, and so has the character behind it. -/
theorem Spaced.exists_run (h : Spaced t (run ++ t')) (hrun : ∀ c ∈ run, isBoundary c = false) :
    ∃ u, t = run ++ u ∧ Spaced u t' ∧ (run ≠ [] → u.head? = t'.head?) := by
  induction run generalizing t with
  | nil => exact ⟨t, rfl, h, fun hne => absurd rfl hne⟩
  | cons c run ih =>
    obtain ⟨hc, hrun'⟩ := List.forall_mem_cons.1 hrun
    have hspace : c ≠ ' ' := by
      rintro rfl
      cases hc
    obtain ⟨v, rfl, hspaced, hnext⟩ := h.exists_cons hspace
    obtain ⟨u, rfl, hu, hhead⟩ := ih hspaced hrun'
    refine ⟨u, rfl, hu, fun _ => ?_⟩
    cases run with
    | nil =>
      -- the last character of the run is no boundary, so no space comes behind it
      rcases hnext with hboundary | hnext
      · rw [hc] at hboundary
        cases hboundary
      · exact hnext
    | cons d run => exact hhead (List.cons_ne_nil d run)

/-- A space closes no block comment. -/
theorem Spaced.closings_le (h : Spaced t t') : closings t' ≤ closings t := by
  induction h with
  | nil => exact Nat.le_refl _
  | @cons c t t' unchanged _ ih =>
    rw [closings_cons, closings_cons]
    refine Nat.add_le_add ih ?_
    rcases unchanged with hc | hhead
    · have hstar : c ≠ '*' := by
        rintro rfl
        cases hc
      rw [if_neg (fun h => hstar h.1)]
      exact Nat.zero_le _
    · exact Nat.le_of_eq (by rw [hhead])
  | @gap t t' part _ ih =>
    have happend := closings_append_le part t
    rw [closings_cons_of_ne (by decide)]
    omega

end Text

/-! ## Rules and spaced texts -/

namespace Rule

variable {rule first second : Rule}

/-- Whether a rule that declines a text declines it with spaces. -/
def Declines (rule : Rule) : Prop := ∀ t t', Spaced t t' → rule t = none → rule t' = none

/-- Whether a rule that reads a token reads it in front of a spaced rest, which has to be
at a boundary if the rest was. -/
def Keeps (rule : Rule) : Prop :=
  ∀ part rest rest' token, Spaced (part ++ rest) (part ++ rest') →
    (rest.atBoundary = true → rest'.atBoundary = true) →
    rule (part ++ rest) = some (.token token rest) →
      rule (part ++ rest') = some (.token token rest')

/-- A rule declines when all that it reads with spaces it reads without them. -/
theorem declines_of_some (h : ∀ t t' r, Spaced t t' → rule t' = some r → rule t ≠ none) :
    Declines rule := by
  intro t t' hspaced hnone
  cases hrule : rule t' with
  | none => rfl
  | some r => exact absurd hnone (h t t' r hspaced hrule)

theorem Declines.or (h : Declines first) (h' : Declines second) :
    Declines fun text => (first text).or (second text) := by
  intro t t' hspaced hnone
  obtain ⟨hfirst, hsecond⟩ := Option.or_eq_none_iff.1 hnone
  exact Option.or_eq_none_iff.2 ⟨h t t' hspaced hfirst, h' t t' hspaced hsecond⟩

theorem Keeps.or (h : Keeps first) (hnone : Declines first) (h' : Keeps second) :
    Keeps fun text => (first text).or (second text) := by
  intro part rest rest' token hspaced hboundary hread
  rcases Option.or_eq_some_iff.1 hread with hfirst | ⟨hfirst, hsecond⟩
  · exact Option.or_eq_some_iff.2 (Or.inl (h part rest rest' token hspaced hboundary hfirst))
  · exact Option.or_eq_some_iff.2 (Or.inr ⟨hnone _ _ hspaced hfirst,
      h' part rest rest' token hspaced hboundary hsecond⟩)

end Rule

namespace Lexeme

variable {text part rest rest' tail : Text} {token : Token Text}

/-! ### Comments -/

theorem declines_blockComment : Rule.Declines blockComment := by
  intro t t' hspaced hnone
  rw [blockComment_eq_none_iff] at *
  rintro body rfl
  obtain ⟨u, rfl, hu, -⟩ := hspaced.exists_cons (by decide)
  obtain ⟨v, rfl, hv, -⟩ := hu.exists_cons (by decide)
  exact Nat.le_zero.1 (hnone v rfl ▸ hv.closings_le)

theorem declines_lineComment : Rule.Declines lineComment := by
  refine Rule.declines_of_some fun t t' r hspaced hread => ?_
  obtain ⟨body, rest, rfl, -, -, -⟩ := exists_of_lineComment hread
  obtain ⟨u, rfl, hu, -⟩ := hspaced.exists_cons (by decide)
  obtain ⟨v, rfl, -, -⟩ := hu.exists_cons (by decide)
  exact Option.some_ne_none _

/-! ### Numbers -/

theorem isBoundary_of_isDigits {digits : Text} (h : IsDigits digits) :
    ∀ c ∈ digits, isBoundary c = false := fun c hc => isBoundary_eq_false_of_isDigit (h c hc)

theorem isBoundary_of_isSign {sign : Text} (h : IsSign sign) :
    ∀ c ∈ sign, isBoundary c = false := by
  rcases h with rfl | rfl | rfl
  · exact fun c hc => by cases hc
  · exact List.forall_mem_singleton.2 rfl
  · exact List.forall_mem_singleton.2 rfl

theorem declines_float : Rule.Declines float := by
  refine Rule.declines_of_some fun t t' r hspaced hread => ?_
  -- the parts are found one after another, and only the boundary may be another one
  obtain ⟨sign, whole, fraction, after, parts, rfl, -⟩ := exists_parts_of_float hread
  obtain ⟨u, rfl, hu, -⟩ := hspaced.exists_run (isBoundary_of_isSign parts.isSign)
  obtain ⟨v, rfl, hv, -⟩ := hu.exists_run (isBoundary_of_isDigits parts.isDigits_whole)
  obtain ⟨w, rfl, hw, -⟩ := hv.exists_cons (by decide)
  obtain ⟨x, rfl, -, hhead⟩ := hw.exists_run (isBoundary_of_isDigits parts.isDigits_fraction)
  have hboundary : x.atBoundary = true := by
    rw [atBoundary_congr (hhead parts.fraction_ne_nil)]
    exact parts.atBoundary
  rw [float_of_parts ⟨parts.isSign, parts.isDigits_whole, parts.isDigits_fraction,
    parts.fraction_ne_nil, hboundary⟩]
  exact Option.some_ne_none _

theorem declines_int : Rule.Declines int := by
  refine Rule.declines_of_some fun t t' r hspaced hread => ?_
  obtain ⟨sign, digits, after, parts, rfl, -⟩ := exists_parts_of_int hread
  obtain ⟨u, rfl, hu, -⟩ := hspaced.exists_run (isBoundary_of_isSign parts.isSign)
  obtain ⟨v, rfl, -, hhead⟩ := hu.exists_run (isBoundary_of_isDigits parts.isDigits)
  have hboundary : v.atBoundary = true := by
    rw [atBoundary_congr (hhead parts.ne_nil)]
    exact parts.atBoundary
  rw [int_of_parts ⟨parts.isSign, parts.isDigits, parts.ne_nil, hboundary⟩]
  exact Option.some_ne_none _

theorem keeps_float : Rule.Keeps float := by
  intro part rest rest' token _ hboundary hread
  obtain ⟨sign, whole, fraction, parts, htext, hfinite, rfl⟩ := exists_parts_of_float_token hread
  obtain rfl : part = sign ++ (whole ++ '.' :: fraction) :=
    List.append_cancel_right (htext.trans (by simp))
  have hfloat := float_of_parts ⟨parts.isSign, parts.isDigits_whole, parts.isDigits_fraction,
    parts.fraction_ne_nil, hboundary parts.atBoundary⟩
  rw [floatReading_eq_token_iff.2 ⟨hfinite, rfl, rfl⟩] at hfloat
  simpa using hfloat

theorem keeps_int : Rule.Keeps int := by
  intro part rest rest' token _ hboundary hread
  obtain ⟨sign, digits, parts, htext, hfits, rfl⟩ := exists_parts_of_int_token hread
  obtain rfl : part = sign ++ digits := List.append_cancel_right (htext.trans (by simp))
  have hint := int_of_parts ⟨parts.isSign, parts.isDigits, parts.ne_nil,
    hboundary parts.atBoundary⟩
  rw [intReading_eq_token_iff.2 ⟨hfits, rfl, rfl⟩] at hint
  simpa using hint

/-! ### Names, marks and literals -/

theorem declines_name : Rule.Declines name := by
  refine Rule.declines_of_some fun t t' r hspaced hread => ?_
  obtain ⟨c, run, after, rfl, hc, hrun, hafter, -⟩ := exists_of_name hread
  rw [← List.cons_append] at hspaced
  have hall := forall_continuesName hc hrun
  obtain ⟨u, rfl, -, hhead⟩ := Spaced.exists_run hspaced
    fun d hd => isBoundary_eq_false_of_continuesName (hall d hd)
  have hboundary : u.atBoundary = true := by
    rw [atBoundary_congr (hhead (List.cons_ne_nil c run))]
    exact hafter
  rw [List.cons_append, name_of_run hc hrun hboundary]
  exact Option.some_ne_none _

theorem declines_mark : Rule.Declines mark := by
  refine Rule.declines_of_some fun t t' r hspaced hread => ?_
  obtain ⟨m, after, rfl, -⟩ := exists_of_mark hread
  obtain ⟨u, rfl, -, -⟩ := hspaced.exists_cons (by cases m <;> decide)
  rw [mark, Mark.ofChar?_char]
  exact Option.some_ne_none _

theorem keeps_name : Rule.Keeps name := by
  intro part rest rest' token _ hboundary hread
  obtain ⟨c, run, after, htext, hc, hrun, hafter, hr⟩ := exists_of_name hread
  obtain ⟨rfl, rfl⟩ := Reading.token.inj hr
  obtain rfl : part = c :: run := List.append_cancel_right (htext.trans (by simp))
  exact name_of_run hc hrun (hboundary hafter)

theorem keeps_mark : Rule.Keeps mark := by
  intro part rest rest' token _ _ hread
  obtain ⟨m, after, htext, hr⟩ := exists_of_mark hread
  obtain ⟨rfl, rfl⟩ := Reading.token.inj hr
  obtain rfl : part = [m.char] := List.append_cancel_right (htext.trans (by simp))
  rw [List.singleton_append, mark, Mark.ofChar?_char]
  rfl

theorem keeps_quotation : Rule.Keeps quotation := by
  intro part rest rest' token _ hboundary hread
  obtain ⟨body, content, htext, hrest, hquotes, rfl⟩ := exists_quotes_of_quotation hread
  obtain rfl : part = '"' :: (body ++ ['"']) := List.append_cancel_right (htext.trans (by simp))
  simpa using quotation_of_quotes hquotes (hboundary hrest)

/-! ### Reading -/

theorem declines_plain : Rule.Declines plain :=
  declines_float.or (declines_int.or (declines_name.or declines_mark))

theorem keeps_plain : Rule.Keeps plain :=
  keeps_float.or declines_float (keeps_int.or declines_int (keeps_name.or declines_name keeps_mark))

/-- A token is read the same in front of a spaced rest. -/
theorem read_of_spaced (hread : read (part ++ rest) = .token token rest)
    (hspaced : Spaced (part ++ rest) (part ++ rest'))
    (hboundary : rest.atBoundary = true → rest'.atBoundary = true) :
    read (part ++ rest') = .token token rest' := by
  obtain ⟨hblock, hline, hrule⟩ := read_eq_token_iff.1 hread
  refine read_eq_token_iff.2 ⟨declines_blockComment _ _ hspaced hblock,
    declines_lineComment _ _ hspaced hline, ?_⟩
  rw [← Option.or_eq_some_iff] at hrule ⊢
  exact keeps_plain.or declines_plain keeps_quotation part rest rest' token hspaced hboundary hrule

/-- Behind a token that is no mark there is a boundary. -/
theorem atBoundary_of_read (hread : read (part ++ rest) = .token token rest) :
    (∃ m : Mark, part = [m.char]) ∨ rest.atBoundary = true := by
  obtain ⟨-, -, hrule⟩ := read_eq_token_iff.1 hread
  simp only [plain, Option.or_eq_some_iff] at hrule
  rcases hrule with (h | ⟨-, h | ⟨-, h | ⟨-, h⟩⟩⟩) | ⟨-, h⟩
  · obtain ⟨_, _, _, parts, -, -, -⟩ := exists_parts_of_float_token h
    exact Or.inr parts.atBoundary
  · obtain ⟨_, _, parts, -, -, -⟩ := exists_parts_of_int_token h
    exact Or.inr parts.atBoundary
  · obtain ⟨_, _, _, -, -, -, hafter, hr⟩ := exists_of_name h
    obtain ⟨-, rfl⟩ := Reading.token.inj hr
    exact Or.inr hafter
  · obtain ⟨m, r, htext, hr⟩ := exists_of_mark h
    obtain ⟨-, rfl⟩ := Reading.token.inj hr
    exact Or.inl ⟨m, List.append_cancel_right (htext.trans (by simp))⟩
  · obtain ⟨_, _, -, hafter, -, -⟩ := exists_quotes_of_quotation h
    exact Or.inr hafter

/-- A token is read the same without what stands at a blank behind its rest. -/
theorem read_of_append (h : AtBlank tail)
    (hread : read (text ++ tail) = .token token (rest ++ tail)) :
    read text = .token token rest := by
  obtain ⟨hblock, hline, hrule⟩ := read_eq_token_iff.1 hread
  refine read_eq_token_iff.2 ⟨blockComment_eq_none_of_append hblock,
    lineComment_eq_none_of_append hline, ?_⟩
  rw [plain_append h] at hrule
  rcases hrule with hplain | ⟨hplain, hquotation⟩
  · obtain ⟨r, hr, hextend⟩ := Option.map_eq_some_iff.1 hplain
    cases r with
    | comment r => cases hextend
    | fault cause => cases hextend
    | token k r =>
      obtain ⟨rfl, hrest⟩ := Reading.token.inj hextend
      rw [List.append_cancel_right hrest] at hr
      exact Or.inl hr
  · obtain ⟨body, content, htext, hafter, hquotes, rfl⟩ := exists_quotes_of_quotation hquotation
    rw [atBoundary_append h] at hafter
    obtain rfl : text = '"' :: (body ++ '"' :: rest) :=
      List.append_cancel_right (htext.trans (by simp))
    exact Or.inr ⟨Option.map_eq_none_iff.1 hplain, quotation_of_quotes hquotes hafter⟩

end Lexeme

end Lexicon
