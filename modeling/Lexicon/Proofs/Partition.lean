import Lexicon.Proofs.Division

/-!
# Spans and the gaps between them

The spans of the tokens of a source are stretches of the source in order, and
the gaps before, between and behind them hold nothing but blanks and comments
(`partition_lexemes`).  Nothing of a source is lost and nothing is covered twice.

The offsets are those that a window has counted while it was narrowed from both
ends.  Here they are compared with the source itself.  `slice?` takes the text
between two offsets, and fails if one of them is inside a character.  What reading
finds at the start of a span, with the blanks at the end of the source removed, is
the token of the span with the text behind the span as the rest.

The proof follows the division of the source.  What is still to be divided has
the text in front of it, and the offset is the size of this text.  The gap
in progress is built up from its end, so it is carried as the statement that a
gap with any start ends in the same place.
-/

namespace Lexicon

open Text Lexeme

/-! ## Stretches of a text -/

namespace Text

/-- The text between two byte offsets.  There is none if an offset is past the
end or inside a character. -/
def slice? (t : Text) (start stop : Nat) : Option Text :=
  (splitBytes? stop t).bind fun cut => (splitBytes? start cut.1).map (·.2)

theorem slice?_append (before passage rest : Text) :
    slice? (before ++ (passage ++ rest)) before.byteSize (before ++ passage).byteSize =
      some passage := by
  rw [slice?, ← List.append_assoc, splitBytes?_append]
  show (splitBytes? before.byteSize (before ++ passage)).map (·.2) = some passage
  rw [splitBytes?_append]
  rfl

/-- The text from an offset on. -/
theorem slice?_append_byteSize (before rest : Text) :
    slice? (before ++ rest) before.byteSize (before ++ rest).byteSize = some rest := by
  have hslice := slice?_append before rest []
  rwa [List.append_nil] at hslice

theorem byteSize_pos {t : Text} (h : t ≠ []) : 0 < t.byteSize := by
  obtain ⟨c, u, rfl⟩ := List.exists_cons_of_ne_nil h
  rw [byteSize_cons]
  exact Nat.add_pos_left c.utf8Size_pos _

end Text

/-! ## What is passed over -/

/-- Whether a passage, with a text behind it, consists of blanks and comments.  A
line comment goes up to a line feed, or up to the blanks at the end of the source. -/
inductive Skipped : Text → Text → Prop where
  /-- Nothing. -/
  | nil {rest : Text} : Skipped [] rest
  /-- A blank. -/
  | blank {c : Char} {passage rest : Text} (blank : isBlank c = true)
      (skipped : Skipped passage rest) : Skipped (c :: passage) rest
  /-- A block comment up to the first end of one. -/
  | block {body passage rest : Text} (first : ¬['*', '/'] <:+: body)
      (skipped : Skipped passage rest) :
      Skipped ('/' :: '*' :: (body ++ '*' :: '/' :: passage)) rest
  /-- A line comment. -/
  | line {body passage rest : Text} (sameLine : '\n' ∉ body)
      (ends : (∃ t, passage ++ rest = '\n' :: t) ∨
        AllBlank (passage ++ rest) ∧ trimEnd ('/' :: '/' :: body) = '/' :: '/' :: body)
      (skipped : Skipped passage rest) : Skipped ('/' :: '/' :: (body ++ passage)) rest

theorem skipped_of_allBlank {blanks : Text} (h : AllBlank blanks) (rest : Text) :
    Skipped blanks rest := by
  induction blanks with
  | nil => exact .nil
  | cons c blanks ih =>
    obtain ⟨hc, hblanks⟩ := allBlank_cons.1 h
    exact .blank hc (ih hblanks)

/-- The two shapes of a comment. -/
theorem exists_of_read_comment {text rest : Text} (h : read text = .comment rest) :
    (∃ body, text = '/' :: '*' :: (body ++ '*' :: '/' :: rest) ∧ ¬['*', '/'] <:+: body) ∨
      ∃ body, text = '/' :: '/' :: (body ++ rest) ∧ '\n' ∉ body ∧ Stops (· != '\n') rest := by
  rcases read_eq_comment_iff.1 h with h | ⟨-, h⟩
  · obtain ⟨body, r, htext, hbody, hr⟩ := exists_of_blockComment h
    obtain rfl : rest = r := Reading.comment.inj hr
    exact Or.inl ⟨body, htext, closings_eq_zero_iff.1 hbody⟩
  · obtain ⟨body, r, htext, hbody, hstops, hr⟩ := exists_of_lineComment h
    obtain rfl : rest = r := Reading.comment.inj hr
    exact Or.inr ⟨body, htext, hbody, hstops⟩

/-- A comment in front of what is passed over.  What is read has no blanks at its
end, and the source goes on with `blanks`. -/
theorem Skipped.comment {part text blanks passage rest : Text}
    (hread : read (part ++ text) = .comment text) (htrim : trimEnd (part ++ text) = part ++ text)
    (hblanks : AllBlank blanks) (hpassage : text ++ blanks = passage ++ rest)
    (h : Skipped passage rest) : Skipped (part ++ passage) rest := by
  rcases exists_of_read_comment hread with ⟨body, htext, hfirst⟩ | ⟨body, htext, hline, hstops⟩
  · obtain rfl : part = '/' :: '*' :: (body ++ ['*', '/']) :=
      List.append_cancel_right (htext.trans (by simp))
    have hblock := Skipped.block hfirst h
    simpa using hblock
  · obtain rfl : part = '/' :: '/' :: body := List.append_cancel_right (htext.trans (by simp))
    refine .line hline ?_ h
    rw [← hpassage]
    cases text with
    | nil =>
      rw [List.append_nil] at htrim
      exact Or.inr ⟨hblanks, htrim⟩
    | cons c t =>
      obtain rfl : c = '\n' := by simpa using stops_cons.1 hstops
      exact Or.inl ⟨t ++ blanks, rfl⟩

/-! ## The gaps -/

/-- The stretches that no span covers, from an offset on and up to another one. -/
def gaps (start stop : Nat) : List Span → List (Nat × Nat)
  | [] => [(start, stop)]
  | s :: spans => (start, s.start) :: gaps s.stop stop spans

/-- How spans lie in a source. -/
structure Partition (source : Text) (lexemes : List (Lexeme Text)) : Prop where
  /-- No span is empty. -/
  nonempty : ∀ l ∈ lexemes, l.span.start < l.span.stop
  /-- All spans are within the source. -/
  within : ∀ l ∈ lexemes, l.span.stop ≤ source.byteSize
  /-- A span starts and stops between characters. -/
  between : ∀ l ∈ lexemes, (splitBytes? l.span.start source).isSome = true ∧
    (splitBytes? l.span.stop source).isSome = true
  /-- A span stops before the next one starts. -/
  ordered : lexemes.Pairwise fun l m => l.span.stop ≤ m.span.start
  /-- The gaps are blanks and comments. -/
  skipped : ∀ gap ∈ gaps 0 source.byteSize (lexemes.map (·.span)), ∃ passage rest,
    slice? source gap.1 gap.2 = some passage ∧
      slice? source gap.2 source.byteSize = some rest ∧ Skipped passage rest
  /-- The token of a span is read at its start, and reading stops where the span
  stops. -/
  reads : ∀ l ∈ lexemes, l.token.isInvalid = false → ∃ text rest,
    slice? source l.span.start source.trimEnd.byteSize = some text ∧
      slice? source l.span.stop source.trimEnd.byteSize = some rest ∧
      read text = .token l.token rest

/-! ## The spans -/

variable {pieces : List Piece} {text source blanks : Text} {l : Lexeme Text}

theorem Piece.mem_lexemes_cons {offset : Nat} {place : Place} {p : Piece} :
    l ∈ lexemes offset place (p :: pieces) ↔
      (∃ k, p.token? = some k ∧
        l = ⟨k, offset, offset + p.text.byteSize, place.line, place.column⟩) ∨
      l ∈ lexemes (offset + p.text.byteSize) (place.after p.text) pieces := by
  rw [lexemes, List.mem_append]
  cases p.token? with
  | none => simp
  | some k => simp

theorem Piece.le_start_of_mem_lexemes {offset : Nat} {place : Place}
    (h : l ∈ lexemes offset place pieces) : offset ≤ l.span.start := by
  induction pieces generalizing offset place with
  | nil => cases h
  | cons p pieces ih =>
    rcases mem_lexemes_cons.1 h with ⟨k, -, rfl⟩ | h
    · exact Nat.le_refl offset
    · exact Nat.le_trans (Nat.le_add_right _ _) (ih h)

theorem Piece.pairwise_lexemes (offset : Nat) (place : Place) (pieces : List Piece) :
    (lexemes offset place pieces).Pairwise fun l m => l.span.stop ≤ m.span.start := by
  induction pieces generalizing offset place with
  | nil => exact List.Pairwise.nil
  | cons p pieces ih =>
    rw [lexemes, List.pairwise_append]
    refine ⟨?_, ih _ _, ?_⟩
    · cases p.token? with
      | none => exact List.Pairwise.nil
      | some k => exact List.pairwise_singleton _ _
    · intro l hl m hm
      cases htoken : p.token? with
      | none =>
        rw [htoken] at hl
        cases hl
      | some k =>
        rw [htoken] at hl
        obtain rfl := List.mem_singleton.1 hl
        exact le_start_of_mem_lexemes hm

/-- Where a token stands in a source without blanks at its end. -/
def Stands (source : Text) (l : Lexeme Text) : Prop :=
  ∃ before part rest, source = before ++ (part ++ rest) ∧ part ≠ [] ∧
    l.span.start = before.byteSize ∧ l.span.stop = (before ++ part).byteSize ∧
    (l.token.isInvalid = false → read (part ++ rest) = .token l.token rest)

/-- The tokens of what is left stand in the source. -/
theorem Division.stands (h : Division pieces text) (before : Text) (place : Place)
    (hl : l ∈ Piece.lexemes before.byteSize place pieces) : Stands (before ++ text) l := by
  induction h generalizing before place with
  | nil => cases hl
  | @blank c pieces rest hc _ ih =>
    rcases Piece.mem_lexemes_cons.1 hl with ⟨k, hk, -⟩ | hl
    · cases hk
    · rw [← byteSize_append] at hl
      simpa using ih (before ++ [c]) _ hl
  | @comment part rest pieces hread _ ih =>
    rcases Piece.mem_lexemes_cons.1 hl with ⟨k, hk, -⟩ | hl
    · cases hk
    · rw [← byteSize_append] at hl
      simpa using ih (before ++ part) _ hl
  | @token k part rest pieces hread _ ih =>
    rcases Piece.mem_lexemes_cons.1 hl with ⟨k', hk, rfl⟩ | hl
    · obtain rfl : k = k' := Option.some.inj hk
      exact ⟨before, part, rest, rfl, (isLexeme_of_read hread).ne_nil, rfl,
        (byteSize_append before part).symm, fun _ => hread⟩
    · rw [← byteSize_append] at hl
      simpa using ih (before ++ part) _ hl
  | @residue cause rest hne _ _ =>
    rcases Piece.mem_lexemes_cons.1 hl with ⟨k, hk, rfl⟩ | hl
    · obtain rfl : Token.invalid rest = k := Option.some.inj hk
      exact ⟨before, rest, [], by rw [List.append_nil], hne, rfl,
        (byteSize_append before rest).symm, fun hvalid => by cases hvalid⟩
    · cases hl

/-! ## The gaps between them -/

/-- A stretch of a source that is passed over. -/
def IsGap (source : Text) (gap : Nat × Nat) : Prop :=
  ∃ before passage rest, source = before ++ (passage ++ rest) ∧
    gap = (before.byteSize, (before ++ passage).byteSize) ∧ Skipped passage rest

theorem IsGap.exists_slices {gap : Nat × Nat} (h : IsGap source gap) :
    ∃ passage rest, slice? source gap.1 gap.2 = some passage ∧
      slice? source gap.2 source.byteSize = some rest ∧ Skipped passage rest := by
  obtain ⟨before, passage, rest, rfl, rfl, hskipped⟩ := h
  have hrest := slice?_append_byteSize (before ++ passage) rest
  rw [List.append_assoc] at hrest
  exact ⟨passage, rest, slice?_append before passage rest, hrest, hskipped⟩

/-- The gaps of a source that is passed up to a text.  The first gap may have been
entered anywhere before. -/
def GapsFrom (source before text : Text) (spans : List Span) : Prop :=
  ∃ passage rest later, text = passage ++ rest ∧ Skipped passage rest ∧
    (∀ start, gaps start source.byteSize spans =
      (start, (before ++ passage).byteSize) :: later) ∧
    ∀ gap ∈ later, IsGap source gap

variable {before part : Text} {spans : List Span}

theorem gapsFrom_blanks (hblanks : AllBlank blanks) (hsource : source = before ++ blanks) :
    GapsFrom source before blanks [] := by
  refine ⟨blanks, [], [], (List.append_nil _).symm, skipped_of_allBlank hblanks [], ?_, by simp⟩
  intro start
  rw [hsource]
  rfl

/-- The first gap goes on to the left. -/
theorem GapsFrom.pass (h : GapsFrom source (before ++ part) text spans)
    (hskipped : ∀ passage rest, text = passage ++ rest → Skipped passage rest →
      Skipped (part ++ passage) rest) : GapsFrom source before (part ++ text) spans := by
  obtain ⟨passage, rest, later, htext, hpassage, hgaps, hlater⟩ := h
  refine ⟨part ++ passage, rest, later, ?_, hskipped passage rest htext hpassage, ?_, hlater⟩
  · rw [htext, List.append_assoc]
  · intro start
    rw [hgaps, List.append_assoc]

/-- A span ends a gap and starts another one. -/
theorem GapsFrom.span (h : GapsFrom source (before ++ part) text spans)
    (hsource : source = before ++ part ++ text) {s : Span} (hstart : s.start = before.byteSize)
    (hstop : s.stop = (before ++ part).byteSize) :
    GapsFrom source before (part ++ text) (s :: spans) := by
  obtain ⟨passage, rest, later, htext, hpassage, hgaps, hlater⟩ := h
  have hgap : IsGap source ((before ++ part).byteSize, (before ++ part ++ passage).byteSize) :=
    ⟨before ++ part, passage, rest, by rw [hsource, htext], rfl, hpassage⟩
  refine ⟨[], part ++ text, _, rfl, .nil, ?_, List.forall_mem_cons.2 ⟨hgap, hlater⟩⟩
  intro start
  rw [gaps, hgaps, hstart, hstop, List.append_nil]

/-- The gaps in what is left of a source. -/
theorem Division.gapsFrom (h : Division pieces text) (htrim : trimEnd text = text)
    (hblanks : AllBlank blanks) (hsource : source = before ++ (text ++ blanks)) (place : Place) :
    GapsFrom source before (text ++ blanks)
      ((Piece.lexemes before.byteSize place pieces).map (·.span)) := by
  induction h generalizing before place with
  | nil => exact gapsFrom_blanks hblanks hsource
  | @blank c pieces rest hc _ ih =>
    have htrim' := trimEnd_eq_self_of_suffix (List.suffix_cons c rest) htrim
    have hsource' : source = before ++ [c] ++ (rest ++ blanks) := by rw [hsource]; simp
    have hrest := ih htrim' hsource' (place.after [c])
    rw [byteSize_append] at hrest
    exact hrest.pass fun _ _ _ hskipped => .blank hc hskipped
  | @comment part rest pieces hread _ ih =>
    have htrim' := trimEnd_eq_self_of_suffix (List.suffix_append part rest) htrim
    have hsource' : source = before ++ part ++ (rest ++ blanks) := by rw [hsource]; simp
    have hrest := ih htrim' hsource' (place.after part)
    rw [byteSize_append] at hrest
    rw [List.append_assoc]
    exact hrest.pass fun _ _ hpassage hskipped =>
      hskipped.comment hread htrim hblanks hpassage
  | @token k part rest pieces hread _ ih =>
    have htrim' := trimEnd_eq_self_of_suffix (List.suffix_append part rest) htrim
    have hsource' : source = before ++ part ++ (rest ++ blanks) := by rw [hsource]; simp
    have hrest := ih htrim' hsource' (place.after part)
    rw [byteSize_append] at hrest
    rw [List.append_assoc]
    exact hrest.span hsource' rfl (byteSize_append before part).symm
  | @residue cause rest _ _ _ =>
    have hsource' : source = before ++ rest ++ blanks := by rw [hsource]; simp
    exact (gapsFrom_blanks hblanks hsource').span hsource' rfl (byteSize_append before rest).symm

/-! ## The whole source -/

/-- Where a token stands in a source, and in the source without the blanks at its
end. -/
theorem exists_parts_of_mem_lexemes (hl : l ∈ (Scan.ofText source).lexemes) :
    ∃ before part rest blanks, source = before ++ (part ++ (rest ++ blanks)) ∧
      trimEnd source = before ++ (part ++ rest) ∧ part ≠ [] ∧
      l.span.start = before.byteSize ∧ l.span.stop = (before ++ part).byteSize ∧
      (l.token.isInvalid = false → read (part ++ rest) = .token l.token rest) := by
  obtain ⟨blanks, -, hsource⟩ := exists_trimEnd_append source
  obtain ⟨pieces, h⟩ := exists_division (trimEnd source)
  rw [lexemes_of_division h] at hl
  obtain ⟨before, part, rest, htrim, hstands⟩ := h.stands [] Place.origin hl
  replace htrim : trimEnd source = before ++ (part ++ rest) := htrim
  refine ⟨before, part, rest, blanks, ?_, htrim, hstands⟩
  rw [← hsource, htrim]
  simp

theorem isGap_of_mem_gaps {gap : Nat × Nat}
    (hgap : gap ∈ gaps 0 source.byteSize ((Scan.ofText source).lexemes.map (·.span))) :
    IsGap source gap := by
  obtain ⟨blanks, hblanks, hsource⟩ := exists_trimEnd_append source
  obtain ⟨pieces, h⟩ := exists_division (trimEnd source)
  rw [lexemes_of_division h] at hgap
  have hwhole : source = [] ++ (trimEnd source ++ blanks) := hsource.symm
  obtain ⟨passage, rest, later, hpassage, hskipped, hgaps, hlater⟩ :=
    h.gapsFrom (trimEnd_trimEnd source) hblanks hwhole Place.origin
  have hfirst : IsGap source (0, passage.byteSize) :=
    ⟨[], passage, rest, by rw [← hpassage]; exact hwhole, rfl, hskipped⟩
  have hlist := hgaps 0
  rw [byteSize_nil, List.nil_append] at hlist
  rw [hlist] at hgap
  exact List.forall_mem_cons.2 ⟨hfirst, hlater⟩ gap hgap

theorem isSome_splitBytes?_append (before rest : Text) :
    (splitBytes? before.byteSize (before ++ rest)).isSome = true := by
  rw [splitBytes?_append]
  rfl

/-- The spans of a source and the gaps between them make up the source.  The gaps
are blanks and comments, and the tokens are what is read at the spans. -/
theorem partition_lexemes (source : Text) : Partition source (Scan.ofText source).lexemes where
  nonempty := by
    intro l hl
    obtain ⟨before, part, rest, blanks, -, -, hne, hstart, hstop, -⟩ :=
      exists_parts_of_mem_lexemes hl
    have hpos := byteSize_pos hne
    rw [hstart, hstop, byteSize_append]
    omega
  within := by
    intro l hl
    obtain ⟨before, part, rest, blanks, hsource, -, -, -, hstop, -⟩ :=
      exists_parts_of_mem_lexemes hl
    rw [hstop, hsource]
    simp only [byteSize_append]
    omega
  between := by
    intro l hl
    obtain ⟨before, part, rest, blanks, hsource, -, -, hstart, hstop, -⟩ :=
      exists_parts_of_mem_lexemes hl
    constructor
    · rw [hstart, hsource]
      exact isSome_splitBytes?_append before _
    · rw [hstop, hsource, ← List.append_assoc]
      exact isSome_splitBytes?_append (before ++ part) _
  ordered := by
    obtain ⟨pieces, h⟩ := exists_division (trimEnd source)
    rw [lexemes_of_division h]
    exact Piece.pairwise_lexemes 0 Place.origin pieces
  skipped := fun gap hgap => (isGap_of_mem_gaps hgap).exists_slices
  reads := by
    intro l hl hvalid
    obtain ⟨before, part, rest, blanks, hsource, htrim, -, hstart, hstop, hread⟩ :=
      exists_parts_of_mem_lexemes hl
    have htext := slice?_append before (part ++ rest) blanks
    have hrest := slice?_append (before ++ part) rest blanks
    rw [List.append_assoc, ← hsource, ← htrim, ← hstart] at htext
    rw [List.append_assoc, List.append_assoc, ← hsource, ← htrim, ← hstop] at hrest
    exact ⟨part ++ rest, rest, htext, hrest, hread hvalid⟩

end Lexicon
