import Lexicon.Lexeme.Rules
import Lexicon.Window

/-!
# Token streams

A token stream draws tokens from a source, one at a time.  Its state is a window
on the rest of the source, the number of tokens it has delivered, and whether it
has finished.

A draw trims the window and reads what is there.  It passes over comments until
it meets a token, a fault or the end.  A fault delivers one invalid token with
all that is left of the window, and one diagnostic.  The stream has then
finished, and it also finishes when the window is empty.  A finished stream
delivers nothing and does not change.

Besides the token, a draw gives the diagnostics and the events it caused.  The
events are a log of the stream: its start, every comment and token with its
span, the fault if there is one, and its end.

`drain` draws until nothing is delivered.  `collect` does the same for a user who
collects the diagnostics of several streams.  All recursions end because the view
gets shorter with every comment and every token.
-/

namespace Lexicon

/-- A token and the stretch of source it was read from. -/
structure Lexeme (ν : Type) where
  /-- The token. -/
  token : Token ν
  /-- Where it stands. -/
  span : Span
deriving DecidableEq, Repr, BEq

/-- The same lexeme with its name kept differently. -/
def Lexeme.map {ν μ : Type} (f : ν → μ) (l : Lexeme ν) : Lexeme μ := ⟨l.token.map f, l.span⟩

/-- What happens while a source is read. -/
inductive Event where
  /-- A source of so many bytes is opened. -/
  | started (bytes : Nat)
  /-- A comment is passed over. -/
  | comment (span : Span)
  /-- A token is delivered. -/
  | token (kind : Kind) (span : Span)
  /-- Nothing can be read any more. -/
  | failed (cause : Fault) (span : Span)
  /-- The source is at its end, after so many tokens. -/
  | finished (tokens : Nat)
deriving DecidableEq, Repr

/-- The state of reading a source. -/
structure TokenStream where
  /-- What is still to be read. -/
  window : Window
  /-- How many tokens have been delivered. -/
  delivered : Nat
  /-- Whether the end has been reached. -/
  finished : Bool
deriving DecidableEq, Repr

/-- What a draw gives. -/
structure Draw where
  /-- The token, unless there is none left. -/
  lexeme? : Option (Lexeme Text)
  /-- What happened, in order. -/
  events : List Event
  /-- The diagnostics to be shown, in order. -/
  reports : List Diagnostic
  /-- The stream after the draw. -/
  stream : TokenStream

/-- A draw that is preceded by an event. -/
def Draw.after (event : Event) (d : Draw) : Draw := { d with events := event :: d.events }

/-- What reading a source to its end gives. -/
structure Scan where
  /-- The tokens in order. -/
  lexemes : List (Lexeme Text)
  /-- What happened, in order. -/
  events : List Event
  /-- The diagnostics to be shown, in order. -/
  reports : List Diagnostic
  /-- The stream at the end. -/
  stream : TokenStream

namespace TokenStream

/-- The stream on a whole source. -/
def ofText (source : Text) : TokenStream := ⟨Window.ofText source, 0, false⟩

/-! ## Drawing one token -/

/-- Draws the next token. -/
def next (s : TokenStream) : Draw :=
  if s.finished then ⟨none, [], [], s⟩
  else
    let w := s.window.trim
    if w.isExhausted then
      ⟨none, [.finished s.delivered], [], { s with window := w, finished := true }⟩
    else
      match h : Lexeme.read w.view with
      | .comment rest =>
        let passed := w.moveTo rest (Lexeme.read_comment h).1
        (next { s with window := passed }).after (.comment (passed.spanFrom w.here))
      | .token token rest =>
        let passed := w.moveTo rest (Lexeme.read_token h).1
        let span := passed.spanFrom w.here
        ⟨some ⟨token, span⟩, [.token token.kind span], [], ⟨passed, s.delivered + 1, false⟩⟩
      | .fault cause =>
        let passed := w.exhaust
        let span := passed.spanFrom w.here
        ⟨some ⟨.invalid w.view, span⟩, [.failed cause span, .finished (s.delivered + 1)],
          [cause.diagnostic span], ⟨passed, s.delivered + 1, true⟩⟩
termination_by s.window.view.length
decreasing_by
  simp only [Window.view_moveTo]
  exact Nat.lt_of_lt_of_le (Lexeme.read_comment h).2 (Text.length_trim_le _)

/-- A stream that delivers a token shows less than before. -/
theorem length_view_next_lt {s : TokenStream} {l : Lexeme Text} (h : s.next.lexeme? = some l) :
    s.next.stream.window.view.length < s.window.view.length := by
  fun_induction next s with
  | case1 => simp at h
  | case2 => simp at h
  | case3 s _ w hw rest hread passed ih =>
    refine Nat.lt_trans (ih h) ?_
    rw [show passed.view = rest from Window.view_moveTo _ _ _]
    exact Nat.lt_of_lt_of_le (Lexeme.read_comment hread).2 (Text.length_trim_le _)
  | case4 s _ w hw token rest hread passed span =>
    rw [show passed.view = rest from Window.view_moveTo _ _ _]
    exact Nat.lt_of_lt_of_le (Lexeme.read_token hread).2 (Text.length_trim_le _)
  | case5 s _ w hw cause hread passed span =>
    have hpos : 0 < w.view.length :=
      List.length_pos_iff.2 fun hnil => hw (by simp [Window.isExhausted, hnil])
    exact Nat.lt_of_lt_of_le hpos (Text.length_trim_le _)

/-! ## Drawing all tokens -/

/-- Draws tokens until there is none left. -/
def drain (s : TokenStream) : Scan :=
  let draw := s.next
  match _ : draw.lexeme? with
  | none => ⟨[], draw.events, draw.reports, draw.stream⟩
  | some lexeme =>
    let rest := drain draw.stream
    ⟨lexeme :: rest.lexemes, draw.events ++ rest.events, draw.reports ++ rest.reports,
      rest.stream⟩
termination_by s.window.view.length
decreasing_by exact length_view_next_lt ‹_›

/-- Draws tokens until there is none left.  Every draw adds its diagnostics to those
that have been collected before. -/
def collect (s : TokenStream) (collected : List Diagnostic) :
    List (Lexeme Text) × List Diagnostic :=
  let draw := s.next
  let shown := collected ++ draw.reports
  match _ : draw.lexeme? with
  | none => ([], shown)
  | some lexeme =>
    let rest := collect draw.stream shown
    (lexeme :: rest.1, rest.2)
termination_by s.window.view.length
decreasing_by exact length_view_next_lt ‹_›

end TokenStream

/-! ## Reading whole sources -/

namespace Scan

/-- Reads a source to its end. -/
def ofText (source : Text) : Scan :=
  let run := (TokenStream.ofText source).drain
  { run with events := .started source.byteSize :: run.events }

/-- The tokens without their places. -/
def tokens (s : Scan) : List (Token Text) := s.lexemes.map (·.token)

end Scan

/-- The tokens of a source. -/
def tokens (source : Text) : List (Token Text) := (Scan.ofText source).tokens

end Lexicon
