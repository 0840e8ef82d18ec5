import Lexicon.Log
import Lexicon.Proofs.Readers

/-!
# The log of a source

Whoever opens a source and asks for its tokens until there is none, and perhaps some more times,
leaves a log.  It tells how long the source is, what has been passed on the way, what could not
be read, and how many tokens there were (`logsInOrder`).  Asking beyond the end adds nothing
(`draws_eq`).

What has been passed are the comments and the valid tokens.  They are found again in the source
by their spans, each read where its span starts and up to where it stops, and outside of these
spans and of the one that could not be read there are only blanks.  So the log leaves out no
comment and no token.

The proof goes over the division of the source, whose pieces have all of this in order.
-/

namespace Lexicon

open Text Lexeme

variable {pieces : List Piece} {text source blanks before gap part : Text}

/-! ## What is logged -/

/-- What is passed on the way through a source. -/
inductive Passed where
  /-- A comment. -/
  | comment (span : Span)
  /-- A token. -/
  | token (lexeme : Lexeme Text)

namespace Passed

/-- Where it stands. -/
def span : Passed → Span
  | comment span => span
  | token l => l.span

/-- The token, if it is one. -/
def lexeme? : Passed → Option (Lexeme Text)
  | comment _ => none
  | token l => some l

/-- How it is read with a text behind it. -/
def reading (rest : Text) : Passed → Reading
  | comment _ => .comment rest
  | token l => .token l.token rest

/-- The entry of the log. -/
def entry : Passed → Log.Entry
  | comment span => ⟨.trace, "skipped comment", [("span", span.position)]⟩
  | token l => ⟨.trace, "token", [("kind", l.token.kind.label), ("span", l.span.position)]⟩

end Passed

/-- The entry of the log for what is also reported. -/
def Diagnostic.entry (d : Diagnostic) : Log.Entry :=
  ⟨.debug, "lexing failed: " ++ d.message,
    [("code", (d.code.map Code.label).getD ""), ("span", d.span.position)]⟩

/-- The last entry of the log, after so many tokens. -/
def finishedEntry (tokens : Nat) : Log.Entry :=
  ⟨.debug, "finished scan", [("tokens", toString tokens)]⟩

/-! ## Asking beyond the end -/

namespace TokenStream

/-- The draws of a stream that is asked for so many tokens. -/
def draws : Nat → TokenStream → List Draw
  | 0, _ => []
  | n + 1, s => s.next :: draws n s.next.stream

theorem draws_of_finished {s : TokenStream} (hs : s.finished = true) (n : Nat) :
    s.draws n = List.replicate n ⟨none, [], [], s⟩ := by
  induction n with
  | zero => rfl
  | succ n ih =>
    rw [draws, next_of_finished hs, ih]
    rfl

/-- A stream that is asked for more tokens than it has delivers them and then nothing, and what
happens is what happens until it has none. -/
theorem draws_eq (s : TokenStream) (further : Nat) :
    (s.draws (further + 1 + s.drain.lexemes.length)).map (·.lexeme?) =
        s.drain.lexemes.map some ++ List.replicate (further + 1) none ∧
      (s.draws (further + 1 + s.drain.lexemes.length)).flatMap (·.events) = s.drain.events := by
  fun_induction drain s with
  | case1 s draw hnone =>
    have hfinished := Reader.finished_of_lexeme?_eq_none hnone
    have hdraws : s.draws (further + 1 + ([] : List (Lexeme Text)).length) =
        draw :: List.replicate further ⟨none, [], [], draw.stream⟩ :=
      congrArg _ (draws_of_finished hfinished further)
    rw [hdraws, List.map_cons, List.flatMap_cons, hnone, List.map_replicate,
      List.flatMap_replicate]
    exact ⟨rfl, by simp⟩
  | case2 s draw l hsome rest ih =>
    have hdraws : s.draws (further + 1 + (l :: rest.lexemes).length) =
        draw :: draw.stream.draws (further + 1 + draw.stream.drain.lexemes.length) := rfl
    rw [hdraws, List.map_cons, List.flatMap_cons, hsome, ih.1, ih.2]
    exact ⟨rfl, rfl⟩

end TokenStream

/-- The log of a source that is opened and then asked for so many tokens. -/
def logOf (source : Text) (requests : Nat) : List Log.Entry :=
  (Event.started source.byteSize ::
    ((TokenStream.ofText source).draws requests).flatMap (·.events)).map Event.entry

/-! ## What the pieces of a source put into the log -/

namespace Piece

/-- What is passed with a piece that covers a span. -/
def passed? (span : Span) : Piece → Option Passed
  | blank _ => none
  | comment _ => some (.comment span)
  | token k _ => some (.token ⟨k, span⟩)
  | residue _ _ => none

/-- What is passed with pieces, the first of which is at an offset and a place. -/
def passed (offset : Nat) (place : Place) : List Piece → List Passed
  | [] => []
  | p :: pieces =>
    (p.passed? ⟨offset, offset + p.text.byteSize, place.line, place.column⟩).toList ++
      passed (offset + p.text.byteSize) (place.after p.text) pieces

/-- The spans of all pieces that are no blanks. -/
def spans (offset : Nat) (place : Place) (pieces : List Piece) : List Span :=
  (passed offset place pieces).map Passed.span ++ (reports offset place pieces).map (·.span)

end Piece

namespace Division

/-- What is passed comes first, then the diagnostic if there is one, and then the end. -/
theorem entries_eq (h : Division pieces text) (delivered offset : Nat) (place : Place) :
    (Piece.events delivered offset place pieces).map Event.entry =
      (Piece.passed offset place pieces).map Passed.entry ++
        ((Piece.reports offset place pieces).map Diagnostic.entry ++
          [finishedEntry (delivered + (Piece.lexemes offset place pieces).length)]) := by
  induction h generalizing delivered offset place with
  | nil => rfl
  | blank _ _ ih => exact ih delivered _ _
  | comment _ _ ih => exact congrArg _ (ih delivered _ _)
  | @token k part rest pieces _ _ ih =>
    have hrest := ih (delivered + 1) (offset + part.byteSize) (place.after part)
    rw [Nat.add_right_comm] at hrest
    exact congrArg _ hrest
  | residue => rfl

/-- The tokens among what is passed are the valid ones. -/
theorem filterMap_passed (h : Division pieces text) (offset : Nat) (place : Place) :
    (Piece.passed offset place pieces).filterMap Passed.lexeme? =
      (Piece.lexemes offset place pieces).filter (!·.token.isInvalid) := by
  induction h generalizing offset place with
  | nil => rfl
  | blank _ _ ih => exact ih _ _
  | comment _ _ ih => exact ih _ _
  | @token k part rest pieces hread _ ih =>
    have hvalid := Token.isInvalid_of_isLexeme (isLexeme_of_read hread)
    rw [Piece.passed, Piece.lexemes, List.filterMap_append, ih, List.filter_append]
    simp only [Piece.passed?, Piece.token?, Option.map_some, Option.toList_some,
      List.filterMap_cons, List.filterMap_nil, Passed.lexeme?, List.filter_cons, hvalid,
      Bool.not_false, if_true, List.filter_nil]
  | residue => rfl

/-- What is passed stands in the source, and is read there. -/
theorem passed_stands (h : Division pieces text) (before : Text) {p : Passed}
    (hp : p ∈ Piece.passed before.byteSize (Place.origin.after before) pieces) :
    ∃ front part rest, before ++ text = front ++ (part ++ rest) ∧
      p.span = ⟨front.byteSize, (front ++ part).byteSize, (Place.origin.after front).line,
        (Place.origin.after front).column⟩ ∧
      read (part ++ rest) = p.reading rest := by
  induction h generalizing before with
  | nil => cases hp
  | @blank c pieces rest _ _ ih =>
    have hfront : before ++ c :: rest = before ++ [c] ++ rest := by simp
    rw [hfront]
    refine ih (before ++ [c]) ?_
    rwa [byteSize_append, Place.after_append]
  | @comment part rest pieces hread _ ih =>
    rcases List.mem_cons.1 hp with rfl | hp
    · exact ⟨before, part, rest, rfl, by rw [byteSize_append]; rfl, hread⟩
    · rw [← List.append_assoc]
      refine ih (before ++ part) ?_
      rwa [byteSize_append, Place.after_append]
  | @token k part rest pieces hread _ ih =>
    rcases List.mem_cons.1 hp with rfl | hp
    · exact ⟨before, part, rest, rfl, by rw [byteSize_append]; rfl, hread⟩
    · rw [← List.append_assoc]
      refine ih (before ++ part) ?_
      rwa [byteSize_append, Place.after_append]
  | residue => cases hp

end Division

/-! ## What is not logged -/

/-- Whether there are only blanks in the stretches that no span covers. -/
def BlankGaps (source : Text) (start : Nat) (spans : List Span) : Prop :=
  ∀ g ∈ gaps start source.byteSize spans, ∃ passage,
    slice? source g.1 g.2 = some passage ∧ AllBlank passage

theorem blankGaps_nil (hblanks : AllBlank blanks) (hsource : source = before ++ blanks) :
    BlankGaps source before.byteSize [] := by
  intro g hg
  obtain rfl := List.mem_singleton.1 hg
  rw [hsource]
  exact ⟨blanks, slice?_append_byteSize before blanks, hblanks⟩

/-- A span behind blanks. -/
theorem BlankGaps.span {others : Text} {s : Span} {spans : List Span}
    (h : BlankGaps source s.stop spans) (hgap : AllBlank gap)
    (hsource : source = before ++ (gap ++ others)) (hstart : s.start = (before ++ gap).byteSize) :
    BlankGaps source before.byteSize (s :: spans) := by
  refine List.forall_mem_cons.2 ⟨?_, h⟩
  rw [hstart, hsource]
  exact ⟨gap, slice?_append before gap others, hgap⟩

/-- The blanks since the last span go on up to the next one. -/
theorem Division.blankGaps (h : Division pieces text) (hblanks : AllBlank blanks)
    (hgap : AllBlank gap) (hsource : source = before ++ (gap ++ (text ++ blanks)))
    (place : Place) :
    BlankGaps source before.byteSize (Piece.spans (before ++ gap).byteSize place pieces) := by
  induction h generalizing before gap place with
  | nil => exact blankGaps_nil (allBlank_append hgap hblanks) hsource
  | @blank c pieces rest hc _ ih =>
    have hgap' := allBlank_append hgap (allBlank_cons.2 ⟨hc, allBlank_nil⟩)
    have hsource' : source = before ++ ((gap ++ [c]) ++ (rest ++ blanks)) := by rw [hsource]; simp
    have hrest := ih hgap' hsource' (place.after [c])
    rwa [← List.append_assoc, byteSize_append] at hrest
  | @comment part rest pieces _ _ ih =>
    have hsource' : source = (before ++ gap ++ part) ++ ([] ++ (rest ++ blanks)) := by
      rw [hsource]
      simp
    have hrest := ih allBlank_nil hsource' (place.after part)
    rw [List.append_nil, byteSize_append] at hrest
    exact BlankGaps.span hrest hgap hsource rfl
  | @token k part rest pieces _ _ ih =>
    have hsource' : source = (before ++ gap ++ part) ++ ([] ++ (rest ++ blanks)) := by
      rw [hsource]
      simp
    have hrest := ih allBlank_nil hsource' (place.after part)
    rw [List.append_nil, byteSize_append] at hrest
    exact BlankGaps.span hrest hgap hsource rfl
  | @residue cause rest =>
    have hsource' : source = before ++ gap ++ rest ++ blanks := by rw [hsource]; simp
    have hrest := blankGaps_nil hblanks hsource'
    rw [byteSize_append] at hrest
    exact BlankGaps.span hrest hgap hsource rfl

/-! ## The whole source -/

/-- What the log of a source is, with what has been passed in order. -/
structure LogsInOrder (source : Text) (passed : List Passed) : Prop where
  /-- Whoever asks for more tokens than there are is given all of them and then nothing. -/
  answers : ∀ requests, (tokens source).length < requests →
    ((TokenStream.ofText source).draws requests).map (·.lexeme?) =
      (Scan.ofText source).lexemes.map some ++
        List.replicate (requests - (tokens source).length) none
  /-- The log has the number of bytes, what has been passed, what has been reported, and the
  number of tokens. -/
  entries : ∀ requests, (tokens source).length < requests →
    logOf source requests =
      ⟨.debug, "starting scan", [("bytes", toString source.byteSize)]⟩ ::
        (passed.map Passed.entry ++ ((Scan.ofText source).reports.map Diagnostic.entry ++
          [⟨.debug, "finished scan", [("tokens", toString (tokens source).length)]⟩]))
  /-- The tokens that have been passed are the valid ones of the source. -/
  valid : passed.filterMap Passed.lexeme? =
    (Scan.ofText source).lexemes.filter (!·.token.isInvalid)
  /-- The source has no other token, and nothing is reported, or it has one invalid token at the
  end, and there is a report with its span and the fault that is found there. -/
  ending : Ending source [] (Scan.ofText source).lexemes (Scan.ofText source).reports
  /-- What has been passed is read where its span starts, up to where it stops. -/
  reads : ∀ p ∈ passed, ∃ text rest,
    slice? source p.span.start source.trimEnd.byteSize = some text ∧
      slice? source p.span.stop source.trimEnd.byteSize = some rest ∧
      read text = p.reading rest
  /-- Its line and its column are counted over what is in front of it. -/
  places : ∀ p ∈ passed, ∃ before rest, splitBytes? p.span.start source = some (before, rest) ∧
    (⟨p.span.line, p.span.column⟩ : Place) = Place.origin.after before
  /-- Before, between and behind the spans there are only blanks, so that nothing is left out
  and the spans are in order. -/
  gaps : BlankGaps source 0 (passed.map Passed.span ++ (Scan.ofText source).reports.map (·.span))

/-- What has been passed stands in the source in front of the blanks at its end. -/
theorem exists_parts_of_mem_passed (h : Division pieces source.trimEnd) {p : Passed}
    (hp : p ∈ Piece.passed 0 Place.origin pieces) :
    ∃ front part rest blanks, source = front ++ (part ++ (rest ++ blanks)) ∧
      source.trimEnd = front ++ (part ++ rest) ∧
      p.span = ⟨front.byteSize, (front ++ part).byteSize, (Place.origin.after front).line,
        (Place.origin.after front).column⟩ ∧
      read (part ++ rest) = p.reading rest := by
  obtain ⟨blanks, -, hsource⟩ := exists_trimEnd_append source
  obtain ⟨front, part, rest, htrim, hspan, hread⟩ := h.passed_stands [] hp
  replace htrim : source.trimEnd = front ++ (part ++ rest) := htrim
  refine ⟨front, part, rest, blanks, ?_, htrim, hspan, hread⟩
  rw [← hsource, htrim]
  simp

/-- A source is logged in order, however often it is asked for tokens beyond its end. -/
theorem logsInOrder (source : Text) : ∃ passed, LogsInOrder source passed := by
  obtain ⟨blanks, hblanks, hsource⟩ := exists_trimEnd_append source
  obtain ⟨pieces, h⟩ := exists_division source.trimEnd
  have hlexemes := lexemes_of_division h
  have hreports := reports_of_division h
  have hlength : (tokens source).length = (TokenStream.ofText source).drain.lexemes.length :=
    List.length_map _
  have hrequests : ∀ requests, (tokens source).length < requests → ∃ further,
      requests = further + 1 + (TokenStream.ofText source).drain.lexemes.length := by
    intro requests hmore
    exact ⟨requests - (tokens source).length - 1, by omega⟩
  refine ⟨Piece.passed 0 Place.origin pieces, ?_⟩
  constructor
  case answers =>
    intro requests hmore
    obtain ⟨further, rfl⟩ := hrequests requests hmore
    rw [((TokenStream.ofText source).draws_eq further).1, hlength, Nat.add_sub_cancel]
    rfl
  case entries =>
    intro requests hmore
    obtain ⟨further, rfl⟩ := hrequests requests hmore
    have hevents := events_of_division h
    have hentries := h.entries_eq 0 0 Place.origin
    rw [← hlexemes, ← hreports, Nat.zero_add] at hentries
    rw [logOf, ((TokenStream.ofText source).draws_eq further).2, hlength]
    show (Scan.ofText source).events.map Event.entry = _
    rw [hevents, List.map_cons, hentries]
    rfl
  case valid => rw [h.filterMap_passed, hlexemes]
  case ending => exact TokenStream.ending_drain (TokenStream.ofText source) (.refl _) []
  case reads =>
    intro p hp
    obtain ⟨front, part, rest, blanks, hfront, htrim, hspan, hread⟩ :=
      exists_parts_of_mem_passed h hp
    have htext := slice?_append front (part ++ rest) blanks
    have hrest := slice?_append (front ++ part) rest blanks
    rw [List.append_assoc, ← hfront, ← htrim] at htext
    rw [List.append_assoc, List.append_assoc, ← hfront, ← htrim] at hrest
    rw [hspan]
    exact ⟨part ++ rest, rest, htext, hrest, hread⟩
  case places =>
    intro p hp
    obtain ⟨front, part, rest, blanks, hfront, -, hspan, -⟩ := exists_parts_of_mem_passed h hp
    rw [hspan]
    exact ⟨front, _, hfront ▸ splitBytes?_append front (part ++ (rest ++ blanks)), rfl⟩
  case gaps =>
    rw [hreports]
    have hwhole : source = [] ++ ([] ++ (trimEnd source ++ blanks)) := hsource.symm
    exact h.blankGaps hblanks allBlank_nil hwhole Place.origin

end Lexicon
