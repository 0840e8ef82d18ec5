import Lexicon.Lexeme.Cutting
import Lexicon.TokenStream

/-!
# Token streams that cut

A token stream that reads by byte offsets may fail where a token stream does not.  A cut may be
refused, both in reading and in moving the window.  A rest may be handed to the window that is
no end of its view, and the window would then be moved to some other place.  And nothing makes
the comments in front of a token, or the tokens, come to an end.

The streams here have no result in any of these cases.  They are given a number of rounds in
which they have to be done.
-/

namespace Lexicon

/-! ## Windows -/

namespace Window

/-- The window without the blanks at either end, the start being moved by their size. -/
def trim? (w : Window) : Option Window :=
  (w.skip? (w.view.byteSize - Text.byteSize (w.view.dropWhile isBlank))).map fun passed =>
    { passed with view := Text.trimEnd passed.view }

/-- The window on a rest of the view, unless the rest is no end of the view. -/
def advance? (w : Window) (rest : Text) : Option Window :=
  if rest <:+ w.view then w.moveTo? rest else none

/-- The window after everything shown has been read. -/
def exhaust? (w : Window) : Option Window := w.skip? w.view.byteSize

end Window

namespace TokenStream

/-! ## Streams -/

/-- Draws the next token, passing over fewer comments than there are rounds. -/
def nextWithin? : Nat → TokenStream → Option Draw
  | 0, _ => none
  | rounds + 1, s =>
    if s.finished then some ⟨none, [], [], s⟩
    else do
      let w ← s.window.trim?
      if w.isExhausted then
        return ⟨none, [.finished s.delivered], [], { s with window := w, finished := true }⟩
      else
        match ← Lexeme.Cutting.read w.view with
        | .comment rest =>
          let passed ← w.advance? rest
          let draw ← nextWithin? rounds { s with window := passed }
          return draw.after (.comment (passed.spanFrom w.here))
        | .token token rest =>
          let passed ← w.advance? rest
          let span := passed.spanFrom w.here
          return ⟨some ⟨token, span⟩, [.token token.kind span], [],
            ⟨passed, s.delivered + 1, false⟩⟩
        | .fault cause =>
          let passed ← w.exhaust?
          let span := passed.spanFrom w.here
          return ⟨some ⟨.invalid w.view, span⟩, [.failed cause span, .finished (s.delivered + 1)],
            [cause.diagnostic span], ⟨passed, s.delivered + 1, true⟩⟩

/-- Draws tokens until there is none left, in fewer draws than there are rounds. -/
def drainWithin? : Nat → TokenStream → Option Scan
  | 0, _ => none
  | rounds + 1, s => do
    let draw ← s.nextWithin? (rounds + 1)
    match draw.lexeme? with
    | none => return ⟨[], draw.events, draw.reports, draw.stream⟩
    | some lexeme =>
      let rest ← drainWithin? rounds draw.stream
      return ⟨lexeme :: rest.lexemes, draw.events ++ rest.events, draw.reports ++ rest.reports,
        rest.stream⟩

end TokenStream

/-- Reads a source to its end. -/
def Scan.ofTextWithin? (rounds : Nat) (source : Text) : Option Scan := do
  let run ← (TokenStream.ofText source).drainWithin? rounds
  return { run with events := .started source.byteSize :: run.events }

end Lexicon
