import Lexicon.Json
import Lexicon.Text.Quoted
import Lexicon.Token.Spelling
import Lexicon.TokenStream

/-!
# Listings

A listing shows the tokens of a source to a user, in one of two formats.  As
text it has a line for each token: the label of its kind, its value if it has
one, and on request the place where it starts.  No value breaks a line, since a
name holds no line feed, string literals are spelled with escapes and invalid
rests are quoted.

As JSON it is one array with an object for each token.  The object has the
label, the value if there is one, and on request the whole span.
-/

namespace Lexicon

namespace Listing

/-! ## Formats -/

/-- How a listing is written. -/
inductive Format where
  /-- One line for each token. -/
  | text
  /-- One JSON array. -/
  | json
deriving DecidableEq, Repr, Inhabited

/-- The name of a format. -/
def Format.label : Format → String
  | text => "text"
  | json => "json"

/-- The format of a given name, in any mixture of upper and lower case.  The
letters of the two names are no other character's lower case, so that ASCII
letters are all that matters. -/
def Format.ofName? (name : Text) : Option Format :=
  [text, json].find? fun format => name.map Char.toLower == format.label.toList

theorem Format.ofName?_label (f : Format) : ofName? f.label.toList = some f := by
  cases f <;> decide

/-! ## Lines -/

/-- The value of a token as a line shows it. -/
def payload? : Token Text → Option Text
  | .float x => some (Token.floatSpelling x)
  | .int n => some (Token.intSpelling n)
  | .name run => some run
  | .string content => some (Token.stringSpelling content)
  | .invalid rest => some rest.quoted
  | .mark _ | .word _ => none

/-- The line of a token, without the line feed. -/
def line (spans : Bool) (l : Lexeme Text) : Text :=
  let value := match payload? l.token with
    | some value => ' ' :: value
    | none => []
  let place := if spans then " @".toList ++ l.span.position.toList else []
  l.token.kind.label.toList ++ value ++ place

/-! ## Records -/

/-- The value of a token as a record shows it. -/
def value? : Token Text → Option Json
  | .float x => some (.float x)
  | .int n => some (.int n.toInt)
  | .name run => some (.string run)
  | .string content => some (.string content)
  | .invalid rest => some (.string rest)
  | .mark _ | .word _ => none

/-- A span as a record shows it. -/
def spanRecord (s : Span) : Json :=
  .object [("start".toList, .int s.start), ("end".toList, .int s.stop),
    ("line".toList, .int s.line.toNat), ("column".toList, .int s.column.toNat)]

/-- The record of a token. -/
def record (spans : Bool) (l : Lexeme Text) : Json :=
  .object <|
    ("kind".toList, .string l.token.kind.label.toList) ::
      (match value? l.token with
        | some value => [("value".toList, value)]
        | none => []) ++
      (if spans then [("span".toList, spanRecord l.span)] else [])

end Listing

end Lexicon
