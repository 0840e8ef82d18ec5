import Lexicon.Proofs.Lexemes

/-!
# Reading in front of more text

A rule decides by what stands near the start of a text, but it may look up to the
end.  Here a text is extended at its end, by a tail that is empty or starts with
a blank, and each rule is asked again.

The plain rules read the same with the tail behind their rest, or decline as
before (`plain_append`).  So does a string literal that was closed.  The comments
need more care.  A block comment that was found is found again, but the opening
of one that was not closed may be closed by the tail.  A line comment that had
come to the end of the text goes on into the tail, up to its first line feed.

A text that opens a block comment and is read as a token is read as a name that
opens one (`exists_name_of_opens`).  So the condition on the tail is one on names.

`read_append_of_token` and `read_append_of_comment` put this together.  With the
grammar of lexemes it follows that a lexeme is read the same in front of every
such tail (`IsLexeme.read_append`).
-/

namespace Lexicon

/-- The same reading with more text behind it. -/
def Reading.extend (tail : Text) : Reading → Reading
  | .comment rest => .comment (rest ++ tail)
  | .token k rest => .token k (rest ++ tail)
  | .fault cause => .fault cause

namespace Lexeme

open Text

variable {text tail rest : Text} {token : Token Text}

/-! ## The plain rules -/

theorem splitSign_append_atBlank (h : AtBlank tail) (text : Text) :
    splitSign (text ++ tail) = ((splitSign text).1, (splitSign text).2 ++ tail) := by
  fun_cases splitSign text with
  | case1 t => rfl
  | case2 t => rfl
  | case3 =>
    rename_i hplus hminus
    refine splitSign_of_isUnsigned fun c hc => ?_
    cases text with
    | nil =>
      have hblank : isBlank c = true := h c hc
      exact ⟨by rintro rfl; exact absurd hblank (by decide),
        by rintro rfl; exact absurd hblank (by decide)⟩
    | cons d t =>
      obtain rfl : d = c := by simpa using hc
      exact ⟨by rintro rfl; exact hplus t rfl, by rintro rfl; exact hminus t rfl⟩

theorem float_append (h : AtBlank tail) (text : Text) :
    float (text ++ tail) = (float text).map (Reading.extend tail) := by
  have hdigits := h.stops_isDigit
  simp only [float, splitSign_append_atBlank h, hdigits.takeWhile_append, hdigits.dropWhile_append]
  generalize (splitSign text).2.dropWhile Char.isDigit = after
  cases after with
  | nil =>
    rw [List.nil_append]
    split
    · rename_i u
      exact absurd rfl (h.ne_cons rfl u)
    · rfl
  | cons c after =>
    by_cases hc : c = '.'
    · subst hc
      simp only [List.cons_append, hdigits.takeWhile_append, hdigits.dropWhile_append,
        atBoundary_append h]
      split
      · rfl
      · split <;> simp [Reading.extend]
    · simp [hc]

theorem int_append (h : AtBlank tail) (text : Text) :
    int (text ++ tail) = (int text).map (Reading.extend tail) := by
  have hdigits := h.stops_isDigit
  simp only [int, splitSign_append_atBlank h, hdigits.takeWhile_append, hdigits.dropWhile_append,
    atBoundary_append h]
  split
  · rfl
  · split <;> simp [Reading.extend]

theorem name_append (h : AtBlank tail) (text : Text) :
    name (text ++ tail) = (name text).map (Reading.extend tail) := by
  have hrun := stops_continuesName_of_atBoundary h.atBoundary
  cases text with
  | nil =>
    cases tail with
    | nil => rfl
    | cons c t =>
      have hc : startsName c = false := by
        rw [startsName, stops_cons.1 hrun, Bool.and_false]
      simp [name, hc]
  | cons c t =>
    simp only [List.cons_append, name, hrun.takeWhile_append, hrun.dropWhile_append,
      atBoundary_append h]
    split <;> simp [Reading.extend]

theorem ofChar?_of_isBlank {c : Char} (h : isBlank c = true) : Mark.ofChar? c = none := by
  rcases eq_of_isBlank h with rfl | rfl | rfl | rfl <;> rfl

theorem mark_append (h : AtBlank tail) (text : Text) :
    mark (text ++ tail) = (mark text).map (Reading.extend tail) := by
  cases text with
  | nil =>
    cases tail with
    | nil => rfl
    | cons c t =>
      simp [mark, ofChar?_of_isBlank (atBlank_cons.1 h)]
  | cons c t =>
    rw [List.cons_append, mark, mark, Option.map_map]
    rfl

theorem plain_append (h : AtBlank tail) (text : Text) :
    plain (text ++ tail) = (plain text).map (Reading.extend tail) := by
  simp only [plain, float_append h, int_append h, name_append h, mark_append h, Option.map_or]

/-! ## String literals -/

theorem quotation_append_of_token (h : AtBlank tail)
    (hread : quotation text = some (.token token rest)) :
    quotation (text ++ tail) = some (.token token (rest ++ tail)) := by
  obtain ⟨body, content, rfl, hboundary, hquotes, rfl⟩ := exists_quotes_of_quotation hread
  have hrest : (rest ++ tail).atBoundary = true := by rwa [atBoundary_append h]
  simpa using quotation_of_quotes hquotes hrest

/-! ## Comments -/

/-- A tail without the end of a comment closes no opening. -/
theorem blockComment_append_eq_none (h : AtBlank tail) (hread : blockComment text = none)
    (hclosings : ['/', '*'] <+: text → closings tail = 0) : blockComment (text ++ tail) = none := by
  rw [blockComment_eq_none_iff] at *
  intro body hbody
  match text, hread, hclosings with
  | [], _, _ => exact absurd hbody (h.ne_cons rfl _)
  | [c], _, _ =>
    rw [List.singleton_append] at hbody
    exact absurd (List.cons.inj hbody).2 (h.ne_cons rfl _)
  | c :: d :: t, hread, hclosings =>
    obtain ⟨rfl, rfl, rfl⟩ : c = '/' ∧ d = '*' ∧ t ++ tail = body := by simpa using hbody
    rw [closings_append_atBlank t h, hread t rfl, hclosings ⟨t, rfl⟩]

theorem lineComment_append_eq_none (h : AtBlank tail) (hread : lineComment text = none) :
    lineComment (text ++ tail) = none := by
  cases hline : lineComment (text ++ tail) with
  | none => rfl
  | some r =>
    obtain ⟨body, rest, heq, -, -, -⟩ := exists_of_lineComment hline
    match text, hread with
    | [], _ => exact absurd heq (h.ne_cons rfl _)
    | [c], _ =>
      rw [List.singleton_append] at heq
      exact absurd (List.cons.inj heq).2 (h.ne_cons rfl _)
    | c :: d :: t, hread =>
      obtain ⟨rfl, rfl, -⟩ : c = '/' ∧ d = '/' ∧ t ++ tail = body ++ rest := by simpa using heq
      cases hread

theorem blockComment_append (hread : blockComment text = some (.comment rest)) (tail : Text) :
    blockComment (text ++ tail) = some (.comment (rest ++ tail)) := by
  fun_cases blockComment text with
  | case1 body =>
    obtain ⟨r, hclose, hr⟩ := Option.map_eq_some_iff.1 hread
    obtain rfl : r = rest := Reading.comment.inj hr
    rw [List.cons_append, List.cons_append, blockComment, afterClose?_append hclose tail]
    rfl
  | case2 t hopen => simp [blockComment] at hread

theorem lineComment_of_body {body : Text} (hbody : '\n' ∉ body) (tail : Text) :
    lineComment ('/' :: '/' :: (body ++ tail)) =
      some (.comment (tail.dropWhile (· != '\n'))) := by
  have hrun : ∀ c ∈ body, (c != '\n') = true := by
    intro c hc
    rw [bne_iff_ne]
    rintro rfl
    exact hbody hc
  rw [lineComment, List.dropWhile_append_of_pos hrun]

/-! ## Reading -/

/-- Nothing is read off a blank. -/
theorem read_cons_of_isBlank {c : Char} (h : isBlank c = true) (t : Text) :
    read (c :: t) = .fault .unexpected := by
  have hslash : c ≠ '/' := by
    rintro rfl
    exact absurd h (by decide)
  have hplain : plain (c :: t) = none := plain_append (atBlank_cons.2 h) []
  have hquotation : quotation (c :: t) = none := by
    unfold quotation
    split
    · rename_i heq
      obtain rfl : c = '"' := (List.cons.inj heq).1
      exact absurd h (by decide)
    · rfl
  rw [read_cons_of_ne_slash hslash, hplain, hquotation]
  rfl

theorem stops_isBlank_of_read {r : Reading} (hread : read text = r)
    (hr : r ≠ .fault .unexpected) : Stops isBlank text := by
  cases text with
  | nil => exact stops_nil
  | cons c t =>
    rw [stops_cons]
    cases hc : isBlank c with
    | false => rfl
    | true =>
      rw [read_cons_of_isBlank hc] at hread
      exact absurd hread.symm hr

/-! ## Names that open a block comment -/

theorem sameLetters_slash (u : Text) (w : Word) :
    Word.sameLetters ('/' :: u) w.spelling = false := by
  cases w <;> simp [Word.sameLetters, Word.spelling]

/-- A text with a slash at its start is no reserved word. -/
theorem nameToken_slash (run : Text) : nameToken ('/' :: run) = .name ('/' :: run) := by
  have hupper : upperCase ('/' :: run) = '/' :: upperCase run := by
    have hslash : capital '/' = ['/'] := by decide +kernel
    show capital '/' ++ upperCase run = _
    rw [hslash]
    rfl
  have hword : Word.ofText? ('/' :: run) = none := by
    rw [Word.ofText?, List.find?_eq_none, hupper]
    intro w _
    rw [sameLetters_slash]
    exact Bool.false_ne_true
  rw [nameToken, hword]

/-- A token read where a block comment could have been opened is a name. -/
theorem exists_name_of_opens (hread : read text = .token token rest)
    (hopens : ['/', '*'] <+: text) : ∃ n, token = .name n ∧ ['/', '*'] <+: n := by
  obtain ⟨t, rfl⟩ := hopens
  obtain ⟨-, -, hrule⟩ := read_eq_token_iff.1 hread
  have hfloat : float (['/', '*'] ++ t) = none := rfl
  have hint : int (['/', '*'] ++ t) = none := rfl
  have hquotation : quotation (['/', '*'] ++ t) = none := rfl
  have hmark : mark (['/', '*'] ++ t) = none := rfl
  rw [plain, hfloat, hint, hquotation, hmark] at hrule
  have hname : name (['/', '*'] ++ t) = some (.token token rest) := by simpa using hrule
  obtain ⟨c, run, r, htext, -, -, hboundary, hr⟩ := exists_of_name hname
  obtain ⟨rfl, hrun⟩ : '/' = c ∧ '*' :: t = run ++ r := List.cons.inj htext
  cases run with
  | nil =>
    obtain rfl : '*' :: t = r := hrun
    cases hboundary
  | cons d run =>
    obtain ⟨rfl, -⟩ : '*' = d ∧ t = run ++ r := List.cons.inj hrun
    refine ⟨'/' :: '*' :: run, ?_, run, rfl⟩
    rw [← nameToken_slash]
    exact (Reading.token.inj hr).1

/-! ## Reading in front of a tail -/

/-- A token is read the same, unless the tail closes a comment that it opens. -/
theorem read_append_of_token (hread : read text = .token token rest) (h : AtBlank tail)
    (hclosings : ['/', '*'] <+: text → closings tail = 0) :
    read (text ++ tail) = .token token (rest ++ tail) := by
  obtain ⟨hblock, hline, hrule⟩ := read_eq_token_iff.1 hread
  refine read_eq_token_iff.2 ⟨blockComment_append_eq_none h hblock hclosings,
    lineComment_append_eq_none h hline, ?_⟩
  rw [plain_append h]
  rcases hrule with hplain | ⟨hplain, hquotation⟩
  · rw [hplain]
    exact Or.inl rfl
  · rw [hplain]
    exact Or.inr ⟨rfl, quotation_append_of_token h hquotation⟩

/-- A comment is read the same, unless it is a line comment that had come to the
end. -/
theorem read_append_of_comment (hread : read text = .comment rest) (tail : Text) :
    read (text ++ tail) = .comment (rest ++ tail) ∨
      rest = [] ∧ read (text ++ tail) = .comment (tail.dropWhile (· != '\n')) := by
  rcases read_eq_comment_iff.1 hread with hblock | ⟨-, hline⟩
  · exact Or.inl (read_eq_comment_iff.2 (Or.inl (blockComment_append hblock tail)))
  · obtain ⟨body, r, rfl, hbody, hstops, hr⟩ := exists_of_lineComment hline
    obtain rfl : rest = r := Reading.comment.inj hr
    have hblock : blockComment ('/' :: '/' :: (body ++ (rest ++ tail))) = none := rfl
    have hextended := lineComment_of_body hbody (rest ++ tail)
    rw [List.cons_append, List.cons_append, List.append_assoc]
    cases rest with
    | nil =>
      right
      exact ⟨rfl, read_eq_comment_iff.2 (Or.inr ⟨hblock, hextended⟩)⟩
    | cons c rest =>
      left
      have hstops' : Stops (· != '\n') (c :: rest ++ tail) := hstops
      rw [hstops'.dropWhile_eq] at hextended
      exact read_eq_comment_iff.2 (Or.inr ⟨hblock, hextended⟩)

/-- A lexeme is read the same in front of every tail, unless the tail closes a
comment that it opens. -/
theorem IsLexeme.read_append (hlexeme : IsLexeme token text) (h : AtBlank tail)
    (hclosings : ['/', '*'] <+: text → closings tail = 0) :
    read (text ++ tail) = .token token tail :=
  read_append_of_token hlexeme.read_eq h hclosings

end Lexeme

end Lexicon
