import Lexicon.Text
import Lexicon.Diagnostic

/-!
# Faults

A fault is the reason why no token can be read at some place of a source.  Each
has a message, a code of its own in the series of errors, and usually a hint.
`Fault.diagnostic` is the diagnostic that reports a fault.
-/

namespace Lexicon

/-- Why no token can be read. -/
inductive Fault where
  /-- No token starts with what is there. -/
  | unexpected
  /-- A string literal is never closed. -/
  | unterminated
  /-- A string literal runs into what follows it. -/
  | unseparated
  /-- A number does not fit its type. -/
  | outOfRange (literal : Text)
deriving DecidableEq, Repr

namespace Fault

/-- What a user is told. -/
def message : Fault → String
  | unexpected => "unexpected input"
  | unterminated => "unterminated string literal"
  | unseparated => "string literal must be followed by whitespace or punctuation"
  | outOfRange literal => "numeric literal `" ++ String.ofList literal ++ "` is out of range"

/-- The code of each fault. -/
def code : Fault → Code
  | unexpected => ⟨"E", 101⟩
  | unterminated => ⟨"E", 102⟩
  | unseparated => ⟨"E", 103⟩
  | outOfRange _ => ⟨"E", 104⟩

/-- What may be done about a fault. -/
def hint? : Fault → Option String
  | unexpected => none
  | unterminated => some "add a closing `\"`"
  | unseparated => some "separate the string from what follows with whitespace"
  | outOfRange _ => some "integers must fit in 64 bits and floats must be finite"

/-- The report of a fault at a place. -/
def diagnostic (f : Fault) (span : Span) : Diagnostic where
  severity := .error
  message := f.message
  span := span
  code := some f.code
  hints := f.hint?.toList

end Fault

end Lexicon
