import Lexicon.Proofs.Drawing
import Lexicon.Proofs.Extension

/-!
# How a source is divided

Reading a source cuts it into pieces.  A piece is a blank, a comment, a lexeme
with its token, or at the end the residue that could not be read.  `Division
pieces text` says that the pieces are those of the text, one clause for each kind
of piece.  It speaks of what is read at each place and not of windows, positions
or the state of a stream.

Every text has a division (`exists_division`), and the pieces put together are
the text (`Division.flatMap_text`).  A stream trims the end of its source before
it reads anything, so what it delivers is the division of the trimmed source
(`lexemes_of_division`, `tokens_of_division`).  Its log follows the pieces, too, with
one event for every piece that is no blank and a last one with the number of tokens
(`events_of_division`), and it reports the fault of the residue (`reports_of_division`).

The tokens of a text can then be taken off one by one.  The equations at the end
say how, for a text that does not end with a blank.
-/

namespace Lexicon

open Text Lexeme

/-! ## Pieces -/

/-- What reading cuts off a source. -/
inductive Piece where
  /-- A blank between lexemes. -/
  | blank (c : Char)
  /-- A comment. -/
  | comment (text : Text)
  /-- A token and its lexeme. -/
  | token (token : Token Text) (lexeme : Text)
  /-- The end of a source that cannot be read. -/
  | residue (cause : Fault) (text : Text)
deriving DecidableEq, Repr

namespace Piece

/-- The text of a piece. -/
def text : Piece → Text
  | blank c => [c]
  | comment t => t
  | token _ t => t
  | residue _ t => t

/-- The token a piece gives. -/
def token? : Piece → Option (Token Text)
  | blank _ => none
  | comment _ => none
  | token k _ => some k
  | residue _ t => some (.invalid t)

/-- The tokens of pieces with their spans, the first piece being at an offset and
a place. -/
def lexemes (offset : Nat) (place : Place) : List Piece → List (Lexeme Text)
  | [] => []
  | p :: pieces =>
    (p.token?.map fun k =>
      (⟨k, offset, offset + p.text.byteSize, place.line, place.column⟩ : Lexeme Text)).toList ++
      lexemes (offset + p.text.byteSize) (place.after p.text) pieces

/-- The event of a piece that covers a span. -/
def event? (span : Span) : Piece → Option Event
  | blank _ => none
  | comment _ => some (.comment span)
  | token k _ => some (.token k.kind span)
  | residue cause _ => some (.failed cause span)

/-- The events of pieces up to the end of a source, the first piece being at an offset and
a place, behind so many tokens. -/
def events (delivered offset : Nat) (place : Place) : List Piece → List Event
  | [] => [.finished delivered]
  | p :: pieces =>
    (p.event? ⟨offset, offset + p.text.byteSize, place.line, place.column⟩).toList ++
      events (delivered + p.token?.toList.length) (offset + p.text.byteSize)
        (place.after p.text) pieces

/-- The diagnostic of a piece that covers a span. -/
def report? (span : Span) : Piece → Option Diagnostic
  | residue cause _ => some (cause.diagnostic span)
  | blank _ | comment _ | token _ _ => none

/-- The diagnostics of pieces, the first piece being at an offset and a place. -/
def reports (offset : Nat) (place : Place) : List Piece → List Diagnostic
  | [] => []
  | p :: pieces =>
    (p.report? ⟨offset, offset + p.text.byteSize, place.line, place.column⟩).toList ++
      reports (offset + p.text.byteSize) (place.after p.text) pieces

theorem map_token_lexemes (offset : Nat) (place : Place) (pieces : List Piece) :
    (lexemes offset place pieces).map (·.token) = pieces.filterMap token? := by
  induction pieces generalizing offset place with
  | nil => rfl
  | cons p pieces ih =>
    rw [lexemes, List.map_append, ih, List.filterMap_cons]
    cases p <;> rfl

end Piece

/-! ## Divisions -/

variable {pieces : List Piece} {text source rest : Text} {token : Token Text}

/-- Whether reading cuts a text into pieces. -/
inductive Division : List Piece → Text → Prop where
  /-- Nothing is left. -/
  | nil : Division [] []
  /-- A blank is passed over. -/
  | blank {c : Char} {pieces : List Piece} {rest : Text} (blank : isBlank c = true)
      (division : Division pieces rest) : Division (.blank c :: pieces) (c :: rest)
  /-- A comment is passed over. -/
  | comment {part rest : Text} {pieces : List Piece} (reads : read (part ++ rest) = .comment rest)
      (division : Division pieces rest) : Division (.comment part :: pieces) (part ++ rest)
  /-- A token is read. -/
  | token {token : Token Text} {part rest : Text} {pieces : List Piece}
      (reads : read (part ++ rest) = .token token rest)
      (division : Division pieces rest) : Division (.token token part :: pieces) (part ++ rest)
  /-- All that is left cannot be read. -/
  | residue {cause : Fault} {rest : Text} (nonempty : rest ≠ []) (stops : Stops isBlank rest)
      (reads : read rest = .fault cause) : Division [.residue cause rest] rest

theorem Division.flatMap_text (h : Division pieces text) : pieces.flatMap Piece.text = text := by
  induction h with
  | nil => rfl
  | blank _ _ ih => rw [List.flatMap_cons, ih]; rfl
  | comment _ _ ih => rw [List.flatMap_cons, ih]; rfl
  | token _ _ ih => rw [List.flatMap_cons, ih]; rfl
  | residue _ _ _ => simp [Piece.text]

/-- Every text is divided somehow. -/
theorem exists_division (text : Text) : ∃ pieces, Division pieces text := by
  -- a comment or a lexeme is not empty, so the rest is shorter
  induction hn : text.length using Nat.strongRecOn generalizing text with
  | ind n ih =>
    subst hn
    cases text with
    | nil => exact ⟨[], .nil⟩
    | cons c t =>
      cases hc : isBlank c with
      | true =>
        obtain ⟨pieces, h⟩ := ih t.length (by simp) t rfl
        exact ⟨.blank c :: pieces, .blank hc h⟩
      | false =>
        cases hread : read (c :: t) with
        | comment rest =>
          obtain ⟨⟨part, hpart⟩, hlength⟩ := read_comment hread
          obtain ⟨pieces, h⟩ := ih rest.length hlength rest rfl
          rw [← hpart] at hread ⊢
          exact ⟨.comment part :: pieces, .comment hread h⟩
        | token k rest =>
          obtain ⟨⟨part, hpart⟩, hlength⟩ := read_token hread
          obtain ⟨pieces, h⟩ := ih rest.length hlength rest rfl
          rw [← hpart] at hread ⊢
          exact ⟨.token k part :: pieces, .token hread h⟩
        | fault cause =>
          exact ⟨[.residue cause (c :: t)], .residue (List.cons_ne_nil c t) (stops_cons.2 hc) hread⟩

/-! ## What a stream delivers -/

theorem exists_view_of_trimEnd_eq_cons {c : Char} {t : Text} (h : trimEnd text = c :: t) :
    ∃ u, text = c :: u := by
  obtain ⟨b, -, hb⟩ := exists_trimEnd_append text
  rw [h] at hb
  exact ⟨t ++ b, hb.symm⟩

theorem trimEnd_of_trimEnd_cons {c : Char} {t : Text} (h : trimEnd (c :: text) = c :: t) :
    trimEnd text = t := by
  obtain ⟨b, hblank, hb⟩ := exists_trimEnd_append (c :: text)
  rw [h] at hb
  obtain rfl : t ++ b = text := (List.cons.inj hb).2
  rw [trimEnd_append_allBlank hblank]
  exact trimEnd_eq_self_of_suffix (List.suffix_cons c t) (h ▸ trimEnd_trimEnd _)

/-- A window that shows something at its start after trimming starts with it. -/
theorem trim_of_trimEnd {w : Window} (h : trimEnd w.view = text) (hne : text ≠ [])
    (hstops : Stops isBlank text) : w.trim = ⟨w.position, text, w.place⟩ := by
  obtain ⟨c, t, rfl⟩ := List.exists_cons_of_ne_nil hne
  obtain ⟨u, hu⟩ := exists_view_of_trimEnd_eq_cons h
  rw [Window.trim_of_stops (hu ▸ hstops), h]

/-- A stream delivers the tokens of the division of what it shows, and its events and its
diagnostics are those of the pieces. -/
theorem drain_of_division {s : TokenStream} (h : Division pieces (trimEnd s.window.view))
    (hs : s.finished = false) :
    s.drain.lexemes = Piece.lexemes s.window.position s.window.place pieces ∧
      s.drain.events =
        Piece.events s.delivered s.window.position s.window.place pieces ∧
      s.drain.reports = Piece.reports s.window.position s.window.place pieces := by
  generalize htext : trimEnd s.window.view = text at h
  induction h generalizing s with
  | nil =>
    have hview : s.window.trim.view = [] := by
      rw [Window.view_trim, trim, (trimEnd_eq_nil_iff.1 htext).dropWhile_eq_nil]
      rfl
    have hnext := TokenStream.next_of_exhausted hs hview
    rw [TokenStream.drain_of_none (by rw [hnext]), hnext]
    exact ⟨rfl, rfl, rfl⟩
  | @blank c pieces rest hc _ ih =>
    obtain ⟨t, ht⟩ := exists_view_of_trimEnd_eq_cons htext
    rw [ht] at htext
    have hnext : s.next = TokenStream.next { s with window := s.window.pass [c] t } :=
      TokenStream.next_congr hs hs rfl (Window.trim_of_view_eq_cons ht hc)
    rw [TokenStream.drain_congr hnext]
    exact ih (s := { s with window := s.window.pass [c] t }) hs (trimEnd_of_trimEnd_cons htext)
  | @comment part rest pieces hread _ ih =>
    have htrim := trim_of_trimEnd htext (ne_nil_of_read hread (by simp))
      (stops_isBlank_of_read hread (by simp))
    have hrest := ih (s := { s with window := s.window.trim.pass part rest }) hs
      (trimEnd_eq_self_of_suffix (List.suffix_append part rest) (htext ▸ trimEnd_trimEnd _))
    rw [TokenStream.drain_of_comment hs (by rw [htrim]) hread, htrim]
    rw [htrim] at hrest
    exact ⟨hrest.1, congrArg _ hrest.2.1, hrest.2.2⟩
  | @token k part rest pieces hread _ ih =>
    have htrim := trim_of_trimEnd htext (ne_nil_of_read hread (by simp))
      (stops_isBlank_of_read hread (by simp))
    have hnext := TokenStream.next_of_token hs (by rw [htrim]) hread
    have hrest := ih (s := ⟨s.window.trim.pass part rest, s.delivered + 1, false⟩) rfl
      (trimEnd_eq_self_of_suffix (List.suffix_append part rest) (htext ▸ trimEnd_trimEnd _))
    rw [TokenStream.drain_of_some (by rw [hnext]), hnext, htrim]
    rw [htrim] at hrest
    exact ⟨congrArg _ hrest.1, congrArg _ hrest.2.1, hrest.2.2⟩
  | @residue cause rest hne hstops hread =>
    have htrim := trim_of_trimEnd htext hne hstops
    have hnext := TokenStream.next_of_fault hs (by rwa [htrim]) (by rw [htrim]; exact hread)
    have hlast := TokenStream.next_of_finished
      (s := ⟨s.window.trim.exhaust, s.delivered + 1, true⟩) rfl
    rw [TokenStream.drain_of_some (by rw [hnext]), hnext,
      TokenStream.drain_of_none (by rw [hlast]), hlast, htrim]
    exact ⟨rfl, rfl, rfl⟩

theorem lexemes_of_division (h : Division pieces (trimEnd source)) :
    (Scan.ofText source).lexemes = Piece.lexemes 0 Place.origin pieces :=
  (drain_of_division (s := TokenStream.ofText source) h rfl).1

theorem events_of_division (h : Division pieces (trimEnd source)) :
    (Scan.ofText source).events =
      .started source.byteSize :: Piece.events 0 0 Place.origin pieces :=
  congrArg _ (drain_of_division (s := TokenStream.ofText source) h rfl).2.1

theorem reports_of_division (h : Division pieces (trimEnd source)) :
    (Scan.ofText source).reports = Piece.reports 0 Place.origin pieces :=
  (drain_of_division (s := TokenStream.ofText source) h rfl).2.2

theorem tokens_of_division (h : Division pieces (trimEnd source)) :
    tokens source = pieces.filterMap Piece.token? := by
  rw [tokens, Scan.tokens, lexemes_of_division h, Piece.map_token_lexemes]

/-! ## Taking tokens off a text -/

theorem tokens_of_division_self (h : Division pieces text) (htrim : trimEnd text = text) :
    tokens text = pieces.filterMap Piece.token? :=
  tokens_of_division (by rwa [htrim])

theorem tokens_nil : tokens [] = [] := tokens_of_division_self .nil rfl

@[simp] theorem tokens_trimEnd (text : Text) : tokens (trimEnd text) = tokens text := by
  obtain ⟨pieces, h⟩ := exists_division (trimEnd text)
  rw [tokens_of_division h, tokens_of_division_self h (trimEnd_trimEnd text)]

theorem tokens_append_allBlank {blanks : Text} (h : AllBlank blanks) (text : Text) :
    tokens (text ++ blanks) = tokens text := by
  rw [← tokens_trimEnd, trimEnd_append_allBlank h, tokens_trimEnd]

/-- A blank at the start gives no token. -/
theorem tokens_cons_of_isBlank {c : Char} (hc : isBlank c = true) (text : Text) :
    tokens (c :: text) = tokens text := by
  by_cases hblank : AllBlank text
  · have hall : AllBlank (c :: text) := allBlank_cons.2 ⟨hc, hblank⟩
    rw [← tokens_trimEnd, trimEnd_eq_nil_iff.2 hall, ← tokens_trimEnd text,
      trimEnd_eq_nil_iff.2 hblank]
  · have htrim : trimEnd (c :: text) = c :: trimEnd text :=
      trimEnd_append_of_ne_nil (fun h => hblank (trimEnd_eq_nil_iff.1 h)) [c]
    obtain ⟨pieces, h⟩ := exists_division (trimEnd text)
    rw [tokens_of_division h, tokens_of_division (htrim ▸ Division.blank hc h)]
    rfl

theorem tokens_allBlank_append {blanks : Text} (h : AllBlank blanks) (text : Text) :
    tokens (blanks ++ text) = tokens text := by
  induction blanks with
  | nil => rfl
  | cons c blanks ih =>
    obtain ⟨hc, hblanks⟩ := allBlank_cons.1 h
    rw [List.cons_append, tokens_cons_of_isBlank hc, ih hblanks]

theorem tokens_of_read_comment (hread : read text = .comment rest)
    (htrim : trimEnd text = text) : tokens text = tokens rest := by
  obtain ⟨part, rfl⟩ := (read_comment hread).1
  obtain ⟨pieces, h⟩ := exists_division rest
  have hrest : trimEnd rest = rest :=
    trimEnd_eq_self_of_suffix (List.suffix_append part rest) htrim
  rw [tokens_of_division_self (.comment hread h) htrim, tokens_of_division_self h hrest]
  rfl

theorem tokens_of_read_token (hread : read text = .token token rest)
    (htrim : trimEnd text = text) : tokens text = token :: tokens rest := by
  obtain ⟨part, rfl⟩ := (read_token hread).1
  obtain ⟨pieces, h⟩ := exists_division rest
  have hrest : trimEnd rest = rest :=
    trimEnd_eq_self_of_suffix (List.suffix_append part rest) htrim
  rw [tokens_of_division_self (.token hread h) htrim, tokens_of_division_self h hrest]
  rfl

theorem tokens_of_read_fault {cause : Fault} (hne : text ≠ []) (hstops : Stops isBlank text)
    (hread : read text = .fault cause) (htrim : trimEnd text = text) :
    tokens text = [.invalid text] :=
  tokens_of_division_self (.residue hne hstops hread) htrim

end Lexicon
