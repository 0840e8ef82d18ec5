import Lexicon.Json
import Lexicon.Lexeme.Numeral
import Lexicon.Toml.Scalar

/-!
# Reading JSON

`Json.parse` reads a whole text as one JSON value, and refuses what the grammar of JSON does
not allow.  Blanks may stand around a value, a key and a punctuation mark.  Items and fields
are set apart by single commas, and none stands before the closing bracket.

A string ends at its first free quote.  Control characters must be escaped in it, and the
escapes are those of the grammar.  The four hexadecimal digits of an escape must be the code of
a character, so that half a surrogate pair is refused.

A number has digits without leading zeros, then possibly a fraction, then possibly an exponent.
Without fraction and exponent it is a whole number, and otherwise the nearest binary number,
which must be finite.  There are no truth values among the values of `Json`, and their names are
not read.

A value may be nested in others.  The readers count down how deep they may still go and how
many items may follow, beginning with the length of the text, which is more than there can be.
-/

namespace Lexicon.Json

open Toml (Reader codePoint prepend)
open Lexeme (digitsValue)

/-- The text after the blanks. -/
def skipBlanks (t : Text) : Text := t.dropWhile isBlank

/-! ## Strings -/

/-- The character for what follows a backslash. -/
def readEscaped : Reader Char
  | '"' :: t => some ('"', t)
  | '\\' :: t => some ('\\', t)
  | '/' :: t => some ('/', t)
  | 'b' :: t => some ('\x08', t)
  | 'f' :: t => some ('\x0c', t)
  | 'n' :: t => some ('\n', t)
  | 'r' :: t => some ('\r', t)
  | 't' :: t => some ('\t', t)
  | 'u' :: t => codePoint 4 t
  | _ => none

/-- The next character of the content of a string, before its closing quote. -/
def readCharacter : Reader Char
  | [] => none
  | c :: t =>
    if c = '"' then none
    else if c = '\\' then readEscaped t
    else if c.toNat < 32 then none
    else some (c, t)

/-- The content and the rest after the closing quote of a string. -/
def readStringBody : Nat → Reader Text
  | 0, _ => none
  | fuel + 1, t =>
    match t with
    | '"' :: rest => some ([], rest)
    | t => do
      let (c, t) ← readCharacter t
      prepend [c] (readStringBody fuel t)

/-- Reads a string. -/
def readString : Reader Text
  | '"' :: t => readStringBody (t.length + 1) t
  | _ => none

/-! ## Numbers -/

/-- Whether a character may stand in a number. -/
def isNumeric (c : Char) : Bool :=
  c.isDigit || c == '-' || c == '+' || c == '.' || c == 'e' || c == 'E'

/-- Whether a text is one or more decimal digits. -/
def isDigits (t : Text) : Bool := !t.isEmpty && t.all Char.isDigit

/-- Whether a text is the whole part of a number: digits with no needless zero
in front. -/
def isWhole (t : Text) : Bool := isDigits t && (t == ['0'] || t.head? != some '0')

/-- The digits of a fraction with its point.  Without a fraction there are none. -/
def fractionDigits? : Text → Option Text
  | [] => some []
  | _ :: t => if isDigits t then some t else none

/-- The value of an exponent with its letter.  Without an exponent it is zero. -/
def exponentValue? : Text → Option Int
  | [] => some 0
  | _ :: '-' :: t => if isDigits t then some (-(digitsValue t : Int)) else none
  | _ :: '+' :: t => if isDigits t then some (digitsValue t) else none
  | _ :: t => if isDigits t then some (digitsValue t) else none

/-- The binary number nearest to so many units of a power of ten. -/
def ofUnits (negative : Bool) (units : Nat) (power : Int) : Binary64 :=
  Binary64.ofQuotient negative (units * Nat.pow 10 power.toNat) (Nat.pow 10 (-power).toNat)

/-- The number with given parts, if they make one. -/
def ofParts? (negative : Bool) (whole fraction exponent : Text) : Option Json :=
  if !isWhole whole then none
  else if fraction.isEmpty && exponent.isEmpty then
    some (.int (if negative then -(digitsValue whole : Int) else digitsValue whole))
  else do
    let digits ← fractionDigits? fraction
    let power ← exponentValue? exponent
    let x := ofUnits negative (digitsValue (whole ++ digits)) (power - digits.length)
    if x.isFinite then some (.float x) else none

/-- Whether a number has a minus, and the text after it. -/
def minus : Text → Bool × Text
  | '-' :: t => (true, t)
  | t => (false, t)

/-- Whether a character is not the letter of an exponent. -/
def isMantissa (c : Char) : Bool := c != 'e' && c != 'E'

/-- The number a text spells. -/
def ofNumeral? (t : Text) : Option Json :=
  let (negative, unsigned) := minus t
  let mantissa := unsigned.takeWhile isMantissa
  ofParts? negative (mantissa.takeWhile (· != '.')) (mantissa.dropWhile (· != '.'))
    (unsigned.dropWhile isMantissa)

/-- Reads a number. -/
def readNumber : Reader Json := fun t =>
  (ofNumeral? (t.takeWhile isNumeric)).map fun n => (n, t.dropWhile isNumeric)

/-! ## Arrays and objects -/

section

variable {α : Type}

/-- Reads one or more things with commas between them and a closing bracket
behind them. -/
def readSeries (close : Char) (one : Reader α) : Nat → Reader (List α)
  | 0, _ => none
  | fuel + 1, t => do
    let (a, t) ← one t
    match skipBlanks t with
    | [] => none
    | c :: t =>
      if c = ',' then (readSeries close one fuel t).map fun (as, rest) => (a :: as, rest)
      else if c = close then some ([a], t)
      else none

/-- Reads what stands between two brackets, after the opening one. -/
def readBracketed (close : Char) (one : Reader α) : Reader (List α) := fun t =>
  match skipBlanks t with
  | [] => none
  | c :: rest => if c = close then some ([], rest) else readSeries close one (t.length + 1) t

end

/-- Reads a key, a colon and a value. -/
def readField (value : Reader Json) : Reader (Text × Json) := fun t => do
  let (key, t) ← readString (skipBlanks t)
  match skipBlanks t with
  | ':' :: t => (value t).map fun (v, rest) => ((key, v), rest)
  | _ => none

/-- Reads a value with the blanks before it. -/
def readValue : Nat → Reader Json
  | 0, _ => none
  | depth + 1, t =>
    match skipBlanks t with
    | [] => none
    | c :: t =>
      if c = '"' then (readString (c :: t)).map fun (content, rest) => (.string content, rest)
      else if c = '[' then
        (readBracketed ']' (readValue depth) t).map fun (items, rest) => (.array items, rest)
      else if c = '{' then
        (readBracketed '}' (readField (readValue depth)) t).map
          fun (fields, rest) => (.object fields, rest)
      else if c = 'n' then
        if ['u', 'l', 'l'].isPrefixOf t then some (.null, t.drop 3) else none
      else readNumber (c :: t)

/-- The value a whole text spells. -/
def parse (t : Text) : Option Json := do
  let (v, rest) ← readValue (t.length + 1) t
  if (skipBlanks rest).isEmpty then some v else none

example : parse "[1, -2 ,\x7b\"a\":null\x7d ]".toList =
    some (.array [.int 1, .int (-2), .object [("a".toList, .null)]]) := rfl

example : parse "[1,]".toList = none := rfl

example : parse "01".toList = none := rfl

end Lexicon.Json
