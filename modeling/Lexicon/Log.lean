import Lexicon.Decimal.Notation
import Lexicon.TokenStream

/-!
# The log

A log entry has a level, a message and fields, each with a name and a written
value.  Its line gives the level, the message and the fields in order.  A
terminal shows the level in a colour, the names of the fields in italics and the
signs after them faint.  What is less grave than the level a user asks for is
left out.

The events of a token stream are entries of the two lowest levels.
-/

namespace Lexicon

namespace Log

/-- How grave an entry is, in ascending order. -/
inductive Level where
  /-- Every step. -/
  | trace
  /-- What helps to find a fault. -/
  | debug
  /-- What has been done. -/
  | info
  /-- What a user should know. -/
  | warn
deriving DecidableEq, Repr

namespace Level

/-- The name of a level. -/
def label : Level → String
  | trace => "TRACE"
  | debug => "DEBUG"
  | info => "INFO"
  | warn => "WARN"

/-- The number of the colour in which terminals show the name. -/
def color : Level → Nat
  | trace => 35
  | debug => 34
  | info => 32
  | warn => 33

/-- The position of a level in the order. -/
def rank : Level → Nat
  | trace => 0
  | debug => 1
  | info => 2
  | warn => 3

end Level

/-- A word in one of the numbered styles of terminals, which ends after it. -/
def styled (style : Nat) (word : String) : String :=
  "\x1b[" ++ toString style ++ "m" ++ word ++ "\x1b[0m"

/-- An entry of the log. -/
structure Entry where
  /-- How grave it is. -/
  level : Level
  /-- What happened. -/
  message : String
  /-- The circumstances, by name. -/
  fields : List (String × String) := []
deriving DecidableEq, Repr

namespace Entry

/-- The written form of an entry, when levels, names of fields and the signs
after these names are written in given ways. -/
def written (level name sign : String → String) (e : Entry) : String :=
  level e.level.label ++ " " ++ e.message ++
    String.join (e.fields.map fun field => " " ++ name field.1 ++ sign "=" ++ field.2)

/-- The line of an entry. -/
def line (e : Entry) : String := e.written id id id

/-- The line of an entry as a terminal shows it. -/
def coloredLine (e : Entry) : String := e.written (styled e.level.color) (styled 3) (styled 2)

/-- Whether an entry is at least as grave as a level. -/
def reaches (e : Entry) (least : Level) : Bool := decide (least.rank ≤ e.level.rank)

end Entry

/-- Numbers in the log have a point or an exponent, and need no exponent for
first digits from `10 ^ (-4)` to `10 ^ 15`. -/
def floatNotation : Notation where
  bounds := some (-4, 15)
  pointed := true
  plus := false
  tie := .away

end Log

/-- The entry of an event. -/
def Event.entry : Event → Log.Entry
  | started bytes => ⟨.debug, "starting scan", [("bytes", toString bytes)]⟩
  | comment span => ⟨.trace, "skipped comment", [("span", span.position)]⟩
  | token kind span => ⟨.trace, "token", [("kind", kind.label), ("span", span.position)]⟩
  | failed cause span =>
    ⟨.debug, "lexing failed: " ++ cause.message,
      [("code", cause.code.label), ("span", span.position)]⟩
  | finished tokens => ⟨.debug, "finished scan", [("tokens", toString tokens)]⟩

end Lexicon
