import Lexicon.TokenStream

/-!
# Readers

A reader asks a stream for tokens and collects the diagnostics that come up.  It can
ask for the next token with its span, for the next token alone, for the next element of
the tokens as a sequence, or for everything that is left.  Whatever it asks for is drawn
from the same stream, so one request goes on where the one before has stopped.

Everything that is left is had by asking for one token after another until there is
none.  The stream has then finished.
-/

namespace Lexicon

/-- A stream that is asked for tokens, with the diagnostics collected so far. -/
structure Reader where
  /-- What is still to be drawn. -/
  stream : TokenStream
  /-- The diagnostics, oldest first. -/
  collected : List Diagnostic
deriving DecidableEq, Repr

/-- What a reader asks for. -/
inductive Reader.Request where
  /-- The next token and its span. -/
  | lexeme
  /-- The next token. -/
  | token
  /-- The next token, as the next element of a sequence. -/
  | element
  /-- All tokens that are left. -/
  | rest
deriving DecidableEq, Repr

/-- What a reader is given. -/
inductive Reader.Answer where
  /-- A token and its span, or nothing at the end. -/
  | lexeme (lexeme? : Option (Lexeme Text))
  /-- A token, or nothing at the end. -/
  | token (token? : Option (Token Text))
  /-- Tokens in order. -/
  | tokens (tokens : List (Token Text))
deriving DecidableEq, Repr

namespace Reader

/-- The reader of a whole source. -/
def ofText (source : Text) (collected : List Diagnostic) : Reader :=
  ⟨TokenStream.ofText source, collected⟩

/-- The offset up to which the source has been read. -/
def position (r : Reader) : Nat := r.stream.window.position

/-! ## Asking -/

/-- Asks for the next token and its span. -/
def nextLexeme (r : Reader) : Option (Lexeme Text) × Reader :=
  let draw := r.stream.next
  (draw.lexeme?, ⟨draw.stream, r.collected ++ draw.reports⟩)

/-- Asks for the next token. -/
def nextToken (r : Reader) : Option (Token Text) × Reader :=
  let (lexeme?, next) := r.nextLexeme
  (lexeme?.map (·.token), next)

theorem length_view_nextToken_lt {r : Reader} {token : Token Text}
    (h : r.nextToken.1 = some token) :
    r.nextToken.2.stream.window.view.length < r.stream.window.view.length := by
  obtain ⟨l, hl, -⟩ := Option.map_eq_some_iff.1 h
  exact TokenStream.length_view_next_lt hl

/-- Asks for one token after another until there is none. -/
def restTokens (r : Reader) : List (Token Text) × Reader :=
  match _ : r.nextToken.1 with
  | none => ([], r.nextToken.2)
  | some token =>
    let later := restTokens r.nextToken.2
    (token :: later.1, later.2)
termination_by r.stream.window.view.length
decreasing_by exact length_view_nextToken_lt ‹_›

/-- Asks for what is requested. -/
def ask (r : Reader) : Request → Answer × Reader
  | .lexeme => (.lexeme r.nextLexeme.1, r.nextLexeme.2)
  | .token | .element => (.token r.nextToken.1, r.nextToken.2)
  | .rest => (.tokens r.restTokens.1, r.restTokens.2)

/-- Makes one request after another. -/
def askAll (r : Reader) : List Request → List Answer × Reader
  | [] => ([], r)
  | request :: requests =>
    let (answer, next) := r.ask request
    let (answers, last) := next.askAll requests
    (answer :: answers, last)
termination_by structural requests => requests

end Reader

end Lexicon
