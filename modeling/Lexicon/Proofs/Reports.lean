import Lexicon.Proofs.Places
import Lexicon.Proofs.Spellings

/-!
# Tokens and diagnostics

What is wrong with a source is told twice, by an invalid token to those who read
the tokens and by a diagnostic to those who only want to know whether the source
is good.  The two agree (`collect_ending`).  A source without an invalid token
adds nothing to the diagnostics.  Any other source has one invalid token, the
last one, and adds one diagnostic, about the same span and with the fault that is
found there.

The proof goes from draw to draw.  A draw that delivers a valid token reports
nothing, and after an invalid token the stream has finished.  The text of the
invalid token is found in the source again because its window narrows that of the
source and cannot be trimmed.
-/

namespace Lexicon

open Text Lexeme

/-- How reading a source ends, and what it adds to the diagnostics that have been
collected before. -/
inductive Ending (source : Text) (collected : List Diagnostic) :
    List (Lexeme Text) → List Diagnostic → Prop where
  /-- All tokens are valid, and nothing is reported. -/
  | complete {lexemes : List (Lexeme Text)} (valid : ∀ l ∈ lexemes, l.token.isInvalid = false) :
      Ending source collected lexemes collected
  /-- Behind the valid tokens, nothing can be read of the text up to the blanks at
  the end of the source. -/
  | failed {lexemes : List (Lexeme Text)} {rest : Text} {span : Span} {cause : Fault}
      (valid : ∀ l ∈ lexemes, l.token.isInvalid = false)
      (covers : slice? source span.start source.trimEnd.byteSize = some rest)
      (stops : span.stop = source.trimEnd.byteSize) (reads : read rest = .fault cause) :
      Ending source collected (lexemes ++ [⟨.invalid rest, span⟩])
        (collected ++ [⟨.error, cause.message, span, some cause.code, cause.hint?.toList⟩])

variable {source : Text} {collected reports : List Diagnostic} {l : Lexeme Text}
  {lexemes : List (Lexeme Text)}

/-- A valid token comes before the others. -/
theorem Ending.cons (hl : l.token.isInvalid = false)
    (h : Ending source collected lexemes reports) :
    Ending source collected (l :: lexemes) reports := by
  cases h with
  | complete valid => exact .complete (List.forall_mem_cons.2 ⟨hl, valid⟩)
  | @failed lexemes rest span cause valid covers stops reads =>
    have hvalid : ∀ m ∈ l :: lexemes, m.token.isInvalid = false :=
      List.forall_mem_cons.2 ⟨hl, valid⟩
    exact .failed hvalid covers stops reads

/-- The fault of a window that cannot be trimmed. -/
theorem ending_fault {w : Window} {cause : Fault} (hwindow : (Window.ofText source).Narrows w)
    (hne : w.view ≠ []) (htrim : w.view.trimEnd = w.view) (hread : read w.view = .fault cause) :
    Ending source collected [⟨.invalid w.view, w.exhaust.spanFrom w.here⟩]
      (collected ++ [cause.diagnostic (w.exhaust.spanFrom w.here)]) := by
  obtain ⟨before, hsource, hposition⟩ := hwindow.trimEnd_source hne htrim
  obtain ⟨blanks, -, hblanks⟩ := exists_trimEnd_append source
  have hslice := slice?_append before w.view blanks
  rw [← List.append_assoc, ← hsource, hblanks, ← hposition] at hslice
  have hstop : (w.exhaust.spanFrom w.here).stop = source.trimEnd.byteSize := by
    rw [hsource, byteSize_append, ← hposition]
    rfl
  have hnone : ∀ m ∈ ([] : List (Lexeme Text)), m.token.isInvalid = false := by
    intro m hm
    cases hm
  exact .failed hnone hslice hstop hread

namespace TokenStream

theorem drain_of_finished {s : TokenStream} (hs : s.finished = true) :
    s.drain = ⟨[], [], [], s⟩ := by
  have hnone : s.next.lexeme? = none := by rw [next_of_finished hs]
  rw [drain_of_none hnone, next_of_finished hs]

/-- What is left of a source is read with the diagnostics of a single fault, or none. -/
theorem ending_drain (s : TokenStream) (hwindow : (Window.ofText source).Narrows s.window)
    (collected : List Diagnostic) :
    Ending source collected s.drain.lexemes (collected ++ s.drain.reports) := by
  induction hn : s.window.view.length using Nat.strongRecOn generalizing s with
  | ind n ih =>
    cases hs : s.finished with
    | true =>
      rw [drain_of_finished hs, List.append_nil]
      exact .complete fun l hl => by cases hl
    | false =>
      cases from_next s hs with
      | exhausted hnone hreports _ _ =>
        rw [drain_of_none hnone, hreports, List.append_nil]
        exact .complete fun l hl => by cases hl
      | token hnarrows hview hread hsome hreports _ hnext =>
        have hlength := length_view_next_lt hsome
        have hrest : (Window.ofText source).Narrows s.next.stream.window :=
          hnext ▸ (hwindow.trans hnarrows).trans (.pass hview)
        have hvalid := Token.isInvalid_of_isLexeme (isLexeme_of_read hread)
        rw [drain_of_some hsome, hreports, List.nil_append]
        exact (ih _ (hn ▸ hlength) _ hrest rfl).cons hvalid
      | fault hnarrows hne htrim hread hsome hreports hfinished _ =>
        rw [drain_of_some hsome, drain_of_finished hfinished, hreports]
        exact ending_fault (hwindow.trans hnarrows) hne htrim hread

/-- Collecting adds the diagnostics of a whole stream at once. -/
theorem collect_eq (s : TokenStream) (collected : List Diagnostic) :
    s.collect collected = (s.drain.lexemes, collected ++ s.drain.reports) := by
  fun_induction collect s collected with
  | case1 s collected draw shown hnone =>
    rw [drain_of_none hnone]
  | case2 s collected draw shown l hsome rest ih =>
    have hrest : rest = (draw.stream.drain.lexemes, shown ++ draw.stream.drain.reports) := ih
    rw [drain_of_some hsome, hrest, ← List.append_assoc]

end TokenStream

/-- The tokens of a source and the diagnostics about it, whatever diagnostics have
been collected before. -/
theorem collect_ending (source : Text) (collected : List Diagnostic) :
    (TokenStream.ofText source).collect collected =
        ((Scan.ofText source).lexemes, collected ++ (Scan.ofText source).reports) ∧
      Ending source collected (Scan.ofText source).lexemes
        (collected ++ (Scan.ofText source).reports) :=
  ⟨TokenStream.collect_eq _ collected, TokenStream.ending_drain _ (.refl _) collected⟩

end Lexicon
