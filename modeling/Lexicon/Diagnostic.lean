import Lexicon.Span

/-!
# Diagnostics

A diagnostic tells a user about a place in a source text: how severe the matter
is, a message, a stable code when there is one, and any number of hints.  The
rendered form is one line for the message, one for the place and one for each
hint.

Diagnostics are collected in a list, oldest first.  Whether a source is at
fault is decided by the errors in its list, and warnings do not count.
-/

namespace Lexicon

/-- How much a diagnostic matters. -/
inductive Severity where
  /-- The source is at fault. -/
  | error
  /-- The source is usable. -/
  | warning
deriving DecidableEq, Repr

/-- The name of a severity in messages. -/
def Severity.label : Severity → String
  | error => "error"
  | warning => "warning"

/-- A stable identifier of a kind of diagnostic: a series and a number. -/
structure Code where
  /-- The series. -/
  series : String
  /-- The number within the series. -/
  number : UInt32
deriving DecidableEq, Repr

/-- The written form of a code, with at least four digits. -/
def Code.label (c : Code) : String :=
  let digits := toString c.number.toNat
  c.series ++ String.ofList (List.replicate (4 - digits.length) '0') ++ digits

/-- A message about a place in a source text. -/
structure Diagnostic where
  /-- How much it matters. -/
  severity : Severity
  /-- What is the matter. -/
  message : String
  /-- The place. -/
  span : Span := Span.nowhere
  /-- The stable identifier. -/
  code : Option Code := none
  /-- What may be done about it. -/
  hints : List String := []
deriving DecidableEq, Repr

namespace Diagnostic

/-- The severity with the code in brackets. -/
def heading (d : Diagnostic) : String :=
  match d.code with
  | some code => d.severity.label ++ "[" ++ code.label ++ "]"
  | none => d.severity.label

/-- The written form, for a source known by the name `origin`. -/
def render (origin : String) (d : Diagnostic) : String :=
  let place := "\n  --> " ++ origin ++ ":" ++ d.span.position
  let hints := d.hints.map ("\n  = help: " ++ ·)
  d.heading ++ ": " ++ d.message ++ place ++ String.join hints

/-- Whether the diagnostic puts its source at fault. -/
def isError (d : Diagnostic) : Bool := d.severity == .error

end Diagnostic

end Lexicon
