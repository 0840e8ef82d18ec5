import Lexicon.Decimal.Notation

/-!
# JSON values

A JSON value, and its written forms.  The compact form has no blanks at all.
The indented form puts every item of an array and every field of an object on a
line of its own, two spaces deeper than the brackets, and a space after each
colon.  An empty array or object is written without a line break in both.

In a string the quote, the backslash and the control characters are escaped,
five of the latter by a letter and the others by four hexadecimal digits.  All
other characters stand for themselves.  A number with a point is written with
the shortest digits that read back, and one that is not finite is written as
null.
-/

namespace Lexicon

/-- A JSON value.  The fields of an object are in order. -/
inductive Json where
  /-- The null value. -/
  | null
  /-- A whole number. -/
  | int (value : Int)
  /-- A number with a point. -/
  | float (value : Binary64)
  /-- A string. -/
  | string (content : Text)
  /-- An array. -/
  | array (items : List Json)
  /-- An object. -/
  | object (fields : List (Text × Json))

namespace Json

/-! ## Numbers and strings -/

/-- Numbers have a point or an exponent.  First digits from `10 ^ (-5)` to
`10 ^ 15` need no exponent, and a half goes to the even digit. -/
def floatNotation : Notation where
  bounds := some (-5, 15)
  pointed := true
  plus := true
  tie := .even

/-- A number with a point, or null. -/
def floatText (x : Binary64) : Text :=
  if x.isFinite then floatNotation.write x else "null".toList

/-- A number as four hexadecimal digits. -/
def fourDigits (n : Nat) : Text :=
  let digits := Nat.toDigits 16 n
  List.replicate (4 - digits.length) '0' ++ digits

/-- A character as it stands in a string. -/
def escape (c : Char) : Text :=
  if c = '"' ∨ c = '\\' then ['\\', c]
  else if c = '\x08' then ['\\', 'b']
  else if c = '\x0c' then ['\\', 'f']
  else if c = '\n' then ['\\', 'n']
  else if c = '\r' then ['\\', 'r']
  else if c = '\t' then ['\\', 't']
  else if c.toNat < 32 then ['\\', 'u'] ++ fourDigits c.toNat
  else [c]

/-- A string between its quotes. -/
def stringText (content : Text) : Text := '"' :: content.flatMap escape ++ ['"']

/-! ## Written forms -/

/-- How the parts of a value are set apart. -/
structure Layout where
  /-- What stands before an item or a closing bracket at a given depth. -/
  separation : Nat → Text
  /-- What stands between a key and its value. -/
  colon : Text

/-- No blanks. -/
def Layout.compact : Layout := ⟨fun _ => [], [':']⟩

/-- One line for each item, and two spaces for each level of depth. -/
def Layout.indented : Layout := ⟨fun depth => '\n' :: List.replicate (2 * depth) ' ', [':', ' ']⟩

mutual

/-- A value whose closing bracket, if it has one, stands at a given depth. -/
def write (layout : Layout) (depth : Nat) : Json → Text
  | null => "null".toList
  | int n => Decimal.signed false n
  | float x => floatText x
  | string content => stringText content
  | array [] => ['[', ']']
  | array (item :: items) =>
    '[' :: layout.separation (depth + 1) ++ write layout (depth + 1) item ++
      writeItems layout (depth + 1) items ++ layout.separation depth ++ [']']
  | object [] => ['{', '}']
  | object ((key, value) :: fields) =>
    '{' :: layout.separation (depth + 1) ++ stringText key ++ layout.colon ++
      write layout (depth + 1) value ++
      writeFields layout (depth + 1) fields ++ layout.separation depth ++ ['}']

/-- The items of an array after the first. -/
def writeItems (layout : Layout) (depth : Nat) : List Json → Text
  | [] => []
  | item :: items =>
    ',' :: layout.separation depth ++ write layout depth item ++ writeItems layout depth items

/-- The fields of an object after the first. -/
def writeFields (layout : Layout) (depth : Nat) : List (Text × Json) → Text
  | [] => []
  | (key, value) :: fields =>
    ',' :: layout.separation depth ++ stringText key ++ layout.colon ++
      write layout depth value ++ writeFields layout depth fields

end

/-- The value without any blanks. -/
def compact (value : Json) : Text := value.write Layout.compact 0

/-- The value with one line for each item. -/
def indented (value : Json) : Text := value.write Layout.indented 0

end Json

end Lexicon
