import Lexicon.Proofs.Partition
import Lexicon.Proofs.Spacing

/-!
# Comments and spaces

A comment separates tokens and does nothing else.  With a space in the place of every
comment a source has the same tokens, and no comments (`tokens_spaced_comments`).  If
the source ends with something that cannot be read, this has the same text as before.

The comments are those that a stream has passed over, by their spans.  The proof follows
the division of the source.  A comment is only seen where a token could start, and one
that directly follows a token follows a mark, since everything else is followed by a
boundary.  So the source and its pieces with the comments replaced are spaced texts
(`Division.spaced`), and the pieces without the comments divide the second one, up to
the blanks at its end (`Division.uncommented`).
-/

namespace Lexicon

open Text Lexeme

variable {pieces : List Piece} {text source blanks : Text}

/-! ## The comments of a source -/

/-- The span of a comment that is passed over. -/
def Event.comment? : Event → Option Span
  | comment span => some span
  | _ => none

/-- The spans of the comments that are passed over while a source is read. -/
def Scan.comments (s : Scan) : List Span := s.events.filterMap Event.comment?

/-- The spans of the comments among pieces. -/
def Piece.comments (offset : Nat) (place : Place) : List Piece → List Span
  | [] => []
  | comment part :: pieces =>
    ⟨offset, offset + part.byteSize, place.line, place.column⟩ ::
      comments (offset + part.byteSize) (place.after part) pieces
  | p :: pieces => comments (offset + p.text.byteSize) (place.after p.text) pieces

theorem Piece.filterMap_comment_events (delivered offset : Nat) (place : Place)
    (pieces : List Piece) :
    (events delivered offset place pieces).filterMap Event.comment? =
      comments offset place pieces := by
  induction pieces generalizing delivered offset place with
  | nil => rfl
  | cons p pieces ih =>
    rw [events, List.filterMap_append, ih]
    cases p <;> rfl

theorem comments_of_division (h : Division pieces (trimEnd source)) :
    (Scan.ofText source).comments = Piece.comments 0 Place.origin pieces := by
  rw [Scan.comments, events_of_division h]
  exact Piece.filterMap_comment_events 0 0 Place.origin pieces

/-! ## Spaces for comments -/

/-- The text from an offset on, with a space in the place of each of some spans.  There is
none if a span does not lie behind the one before it, or starts or stops inside a
character. -/
def Text.spaced? (source : Text) (start : Nat) : List Span → Option Text
  | [] => slice? source start source.byteSize
  | s :: spans => do
    let kept ← slice? source start s.start
    let later ← spaced? source s.stop spans
    return kept ++ ' ' :: later
termination_by structural spans => spans

/-- The text of a piece, and a space for a comment. -/
def Piece.spaced : Piece → Text
  | comment _ => [' ']
  | p => p.text

/-- The comments of a source are replaced piece by piece.  What has been passed since the
last comment is still to be kept. -/
theorem spaced?_comments (pieces : List Piece) (before kept : Text) (place : Place)
    (hsource : source = before ++ (kept ++ (pieces.flatMap Piece.text ++ blanks))) :
    spaced? source before.byteSize (Piece.comments (before ++ kept).byteSize place pieces) =
      some (kept ++ (pieces.flatMap Piece.spaced ++ blanks)) := by
  induction pieces generalizing before kept place with
  | nil =>
    rw [hsource]
    exact slice?_append_byteSize before (kept ++ blanks)
  | cons p pieces ih =>
    rw [List.flatMap_cons, List.append_assoc] at hsource
    -- a piece that is no comment is kept with what has been passed
    have hkept := ih before (kept ++ p.text) (place.after p.text) (by rw [hsource]; simp)
    rw [← List.append_assoc before, byteSize_append _ p.text, List.append_assoc kept] at hkept
    rw [List.flatMap_cons, List.append_assoc]
    cases p with
    | blank c => exact hkept
    | token k part => exact hkept
    | residue cause part => exact hkept
    | comment part =>
      -- the kept text ends here, and behind the comment there is none yet
      replace hsource :
        source = before ++ (kept ++ (part ++ (pieces.flatMap Piece.text ++ blanks))) := hsource
      have hslice := slice?_append before kept (part ++ (pieces.flatMap Piece.text ++ blanks))
      have hlater := ih (before ++ kept ++ part) [] (place.after part) (by rw [hsource]; simp)
      rw [← hsource] at hslice
      rw [List.append_nil, byteSize_append _ part] at hlater
      simp only [Piece.comments, spaced?, hslice, hlater, Option.bind_eq_bind, Option.bind_some]
      rfl

theorem spaced?_of_division (h : Division pieces text) (hsource : text ++ blanks = source) :
    spaced? source 0 (Piece.comments 0 Place.origin pieces) =
      some (pieces.flatMap Piece.spaced ++ blanks) := by
  refine spaced?_comments pieces [] [] Place.origin ?_
  rw [h.flatMap_text, hsource]
  rfl

/-! ## The pieces around the comments -/

/-- A boundary is no start of a comment. -/
theorem Division.head?_spaced (h : Division pieces text) (hboundary : text.atBoundary = true) :
    text.head? = (pieces.flatMap Piece.spaced).head? := by
  cases h with
  | nil => rfl
  | blank => rfl
  | comment hread _ =>
    rcases exists_of_read_comment hread with ⟨_, htext, -⟩ | ⟨_, htext, -, -⟩
    · rw [htext] at hboundary
      cases hboundary
    · rw [htext] at hboundary
      cases hboundary
  | @token k part rest pieces hread _ =>
    obtain ⟨c, u, rfl, -⟩ := (isLexeme_of_read hread).exists_cons
    rfl
  | @residue cause rest =>
    rw [List.flatMap_singleton]
    rfl

/-- With spaces for its comments a text is a spaced text. -/
theorem Division.spaced (h : Division pieces text) :
    Spaced text (pieces.flatMap Piece.spaced) := by
  induction h with
  | nil => exact .nil
  | blank hc _ ih => exact .cons (Or.inl (isBoundary_of_isBlank hc)) ih
  | @comment part rest pieces _ _ ih => exact .gap part ih
  | @token k part rest pieces hread hrest ih =>
    rcases atBoundary_of_read hread with ⟨m, rfl⟩ | hboundary
    · exact .cons (Or.inl (by cases m <;> rfl)) ih
    · exact ih.append (hrest.head?_spaced hboundary) part
  | @residue cause rest =>
    rw [List.flatMap_singleton]
    exact .refl rest

/-- A token in front of pieces whose comments are replaced. -/
theorem Division.read_spaced {token : Token Text} {part : Text} (h : Division pieces text)
    (hread : read (part ++ text) = .token token text) :
    read (part ++ pieces.flatMap Piece.spaced) = .token token (pieces.flatMap Piece.spaced) := by
  refine read_of_spaced hread (Division.token hread h).spaced fun hboundary => ?_
  rw [← atBoundary_congr (h.head?_spaced hboundary)]
  exact hboundary

/-! ## Without comments -/

/-- Whether no piece is a comment. -/
def Piece.NoComments (pieces : List Piece) : Prop := ∀ part, comment part ∉ pieces

/-- Whether a text has these tokens and no comments. -/
def Uncommented (text : Text) (ks : List (Token Text)) : Prop :=
  ∃ pieces, Division pieces (trimEnd text) ∧ pieces.filterMap Piece.token? = ks ∧
    Piece.NoComments pieces

variable {ks : List (Token Text)} {k : Token Text} {part : Text}

theorem Piece.noComments_nil : NoComments [] := fun _ => List.not_mem_nil

theorem Piece.NoComments.cons {p : Piece} (h : NoComments pieces) (hp : ∀ part, comment part ≠ p) :
    NoComments (p :: pieces) := fun part hpart =>
  (List.mem_cons.1 hpart).elim (hp part) (h part)

theorem Piece.NoComments.comments_eq_nil (h : NoComments pieces) (offset : Nat) (place : Place) :
    comments offset place pieces = [] := by
  induction pieces generalizing offset place with
  | nil => rfl
  | cons p pieces ih =>
    have hrest : NoComments pieces := fun part hpart => h part (List.mem_cons_of_mem p hpart)
    cases p with
    | comment part => exact absurd (List.mem_cons_self ..) (h part)
    | blank c => exact ih hrest _ _
    | token k part => exact ih hrest _ _
    | residue cause part => exact ih hrest _ _

theorem uncommented_nil : Uncommented [] [] := ⟨[], .nil, rfl, Piece.noComments_nil⟩

/-- A blank in front stays, unless there is nothing but blanks. -/
theorem Uncommented.blank {c : Char} (h : Uncommented text ks) (hc : isBlank c = true) :
    Uncommented (c :: text) ks := by
  obtain ⟨pieces, hpieces, htokens, hnone⟩ := h
  by_cases hnil : trimEnd text = []
  · have hall : AllBlank (c :: text) := allBlank_cons.2 ⟨hc, trimEnd_eq_nil_iff.1 hnil⟩
    rw [hnil] at hpieces
    rw [← trimEnd_eq_nil_iff.2 hall] at hpieces
    exact ⟨pieces, hpieces, htokens, hnone⟩
  · have htrim : trimEnd (c :: text) = c :: trimEnd text := trimEnd_append_of_ne_nil hnil [c]
    refine ⟨.blank c :: pieces, ?_, htokens, hnone.cons fun _ => by simp⟩
    rw [htrim]
    exact .blank hc hpieces

/-- A token in front stays, as the blanks at the end are no matter for it. -/
theorem Uncommented.token (h : Uncommented text ks) (hread : read (part ++ text) = .token k text) :
    Uncommented (part ++ text) (k :: ks) := by
  obtain ⟨pieces, hpieces, htokens, hnone⟩ := h
  obtain ⟨blanks, hblanks, htext⟩ := exists_trimEnd_append text
  have htrim := (isLexeme_of_read hread).trimEnd_append text
  rw [← htext, ← List.append_assoc] at hread
  refine ⟨.token k part :: pieces, ?_, congrArg _ htokens, hnone.cons fun _ => by simp⟩
  rw [htrim]
  exact .token (read_of_append hblanks.atBlank hread) hpieces

theorem uncommented_residue {cause : Fault} (hne : text ≠ []) (hstops : Stops isBlank text)
    (hread : read text = .fault cause) (htrim : trimEnd text = text) :
    Uncommented text [.invalid text] := by
  refine ⟨[.residue cause text], ?_, rfl, Piece.noComments_nil.cons fun _ => by simp⟩
  rw [htrim]
  exact .residue hne hstops hread

theorem Uncommented.append_allBlank (h : Uncommented text ks) (hblanks : AllBlank blanks) :
    Uncommented (text ++ blanks) ks := by
  rwa [Uncommented, trimEnd_append_allBlank hblanks]

/-- The pieces of a text with spaces for the comments. -/
theorem Division.uncommented (h : Division pieces text) (htrim : trimEnd text = text) :
    Uncommented (pieces.flatMap Piece.spaced) (pieces.filterMap Piece.token?) := by
  induction h with
  | nil => exact uncommented_nil
  | @blank c pieces rest hc _ ih =>
    exact (ih (trimEnd_eq_self_of_suffix (List.suffix_cons c rest) htrim)).blank hc
  | @comment part rest pieces _ _ ih =>
    exact (ih (trimEnd_eq_self_of_suffix (List.suffix_append part rest) htrim)).blank rfl
  | @token k part rest pieces hread hrest ih =>
    have hspaced := ih (trimEnd_eq_self_of_suffix (List.suffix_append part rest) htrim)
    exact hspaced.token (hrest.read_spaced hread)
  | @residue cause rest hne hstops hread =>
    rw [List.flatMap_singleton]
    exact uncommented_residue hne hstops hread htrim

/-- With a space in the place of each of its comments, a source has the same tokens and
no comments. -/
theorem tokens_spaced_comments (source : Text) :
    ∃ text, spaced? source 0 (Scan.ofText source).comments = some text ∧
      tokens text = tokens source ∧ (Scan.ofText text).comments = [] := by
  obtain ⟨blanks, hblanks, hsource⟩ := exists_trimEnd_append source
  obtain ⟨pieces, h⟩ := exists_division (trimEnd source)
  obtain ⟨kept, hkept, htokens, hnone⟩ :=
    (h.uncommented (trimEnd_trimEnd source)).append_allBlank hblanks
  refine ⟨pieces.flatMap Piece.spaced ++ blanks, ?_, ?_, ?_⟩
  · rw [comments_of_division h, spaced?_of_division h hsource]
  · rw [tokens_of_division hkept, tokens_of_division h, htokens]
  · rw [comments_of_division hkept, hnone.comments_eq_nil]

end Lexicon
