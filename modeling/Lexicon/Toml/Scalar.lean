import Lexicon.Toml.Value

/-!
# Strings, numbers and dates of TOML

A reader takes a text and gives what it has read with the rest of the text, or
nothing when the text does not start with what it reads.

A string stands between double quotes, with escapes, or between single quotes,
without.  Three quotes of either sort open a string that may go over several
lines.  A line break right after them is left out, and every other one is a line
feed.  Before the three closing quotes there may be one or two quotes that are
content.  In the form with escapes, a backslash at the end of a line takes with
it all blanks and line breaks that follow.

A whole number is decimal with an optional sign and no leading zero, or
hexadecimal, octal or binary without sign, and must fit 64 bits.  Between two
digits there may be an underscore.  A number with a point or an exponent must
not be larger than all finite numbers.  A date must be a day of the calendar and
a time must be of the day, where a minute may have a leap second.
-/

namespace Lexicon.Toml

/-- Reads something at the start of a text. -/
abbrev Reader (α : Type) := Text → Option (α × Text)

/-! ## Characters and lines -/

/-- A space or a tab. -/
def isGap (c : Char) : Bool := c == ' ' || c == '\t'

/-- Whether a character may stand in a comment: a tab, or anything that is not
a control character of ASCII. -/
def isPrinting (c : Char) : Bool :=
  c == '\t' || (0x20 ≤ c.toNat && c.toNat != 0x7F)

/-- The text after the gaps. -/
def skipGaps (t : Text) : Text := t.dropWhile isGap

/-- The text after a line break. -/
def lineBreak? : Text → Option Text
  | '\n' :: t => some t
  | '\r' :: '\n' :: t => some t
  | _ => none

/-- The text after the rest of a line on which there may only be gaps and a
comment. -/
def lineEnd? (t : Text) : Option Text :=
  let rest := match skipGaps t with
    | '#' :: t => t.dropWhile isPrinting
    | t => t
  if rest.isEmpty then some [] else lineBreak? rest

/-- The text after gaps, line breaks and comments. -/
def skipLines : Nat → Text → Text
  | 0, t => t
  | fuel + 1, t =>
    match skipGaps t with
    | '#' :: rest =>
      let rest := rest.dropWhile isPrinting
      match lineBreak? rest with
      | some rest => skipLines fuel rest
      | none => rest
    | rest =>
      match lineBreak? rest with
      | some rest => skipLines fuel rest
      | none => rest

/-! ## Strings -/

/-- The value of a hexadecimal digit. -/
def hexDigit? (c : Char) : Option Nat :=
  if '0' ≤ c ∧ c ≤ '9' then some (c.toNat - '0'.toNat)
  else if 'a' ≤ c ∧ c ≤ 'f' then some (c.toNat - 'a'.toNat + 10)
  else if 'A' ≤ c ∧ c ≤ 'F' then some (c.toNat - 'A'.toNat + 10)
  else none

/-- The character whose code is written with a given number of hexadecimal
digits. -/
def codePoint (digits : Nat) : Reader Char := fun t => do
  let written := t.take digits
  let values ← written.mapM hexDigit?
  let code := values.foldl (16 * · + ·) 0
  if written.length = digits ∧ code.isValidChar then some (Char.ofNat code, t.drop digits)
  else none

/-- The character for what follows a backslash. -/
def escaped : Reader Char
  | 'b' :: t => some ('\x08', t)
  | 't' :: t => some ('\t', t)
  | 'n' :: t => some ('\n', t)
  | 'f' :: t => some ('\x0c', t)
  | 'r' :: t => some ('\r', t)
  | '"' :: t => some ('"', t)
  | '\\' :: t => some ('\\', t)
  | 'u' :: t => codePoint 4 t
  | 'U' :: t => codePoint 8 t
  | _ => none

/-- Content in front of what has been read. -/
def prepend (content : Text) (read : Option (Text × Text)) : Option (Text × Text) :=
  read.map fun (more, rest) => (content ++ more, rest)

/-- The content and the rest after the closing quote of a string with escapes
on one line. -/
def basicBody : Nat → Reader Text
  | 0, _ => none
  | _ + 1, [] => none
  | _ + 1, '"' :: t => some ([], t)
  | fuel + 1, '\\' :: t => do
    let (c, t) ← escaped t
    prepend [c] (basicBody fuel t)
  | fuel + 1, c :: t => if isPrinting c then prepend [c] (basicBody fuel t) else none

/-- The content and the rest after the closing quote of a string without
escapes on one line. -/
def literalBody (t : Text) : Option (Text × Text) :=
  match t.dropWhile fun c => c != '\'' && isPrinting c with
  | '\'' :: rest => some (t.takeWhile fun c => c != '\'' && isPrinting c, rest)
  | _ => none

/-- How many of a run of quotes are content, and whether they close a string
over several lines. -/
def closingQuotes (count : Nat) : Nat × Bool :=
  if count < 3 then (count, false) else (min (count - 3) 2, true)

/-- The text after gaps and line breaks, at least one of the latter coming
first. -/
def lineContinuation? (t : Text) : Option Text :=
  (lineBreak? (skipGaps t)).map fun t =>
    let t := t.dropWhile fun c => isGap c || c == '\n'
    dropBreaks t.length t
where
  /-- Takes further line breaks that start with a carriage return. -/
  dropBreaks : Nat → Text → Text
    | 0, t => t
    | fuel + 1, t =>
      match t with
      | '\r' :: '\n' :: t => dropBreaks fuel (t.dropWhile fun c => isGap c || c == '\n')
      | t => t

/-- The content and the rest after the closing quotes of a string over several
lines, with or without escapes. -/
def multilineBody (quote : Char) (escapes : Bool) : Nat → Reader Text
  | 0, _ => none
  | _ + 1, [] => none
  | fuel + 1, c :: t =>
    if c = quote then
      let count := ((c :: t).takeWhile (· == quote)).length
      let (kept, closes) := closingQuotes count
      let content := List.replicate kept quote
      if closes then some (content, (c :: t).drop (kept + 3))
      else prepend content (multilineBody quote escapes fuel ((c :: t).drop kept))
    else if c = '\\' ∧ escapes then
      match lineContinuation? t with
      | some t => multilineBody quote escapes fuel t
      | none => do
        let (c, t) ← escaped t
        prepend [c] (multilineBody quote escapes fuel t)
    else
      match lineBreak? (c :: t) with
      | some t => prepend ['\n'] (multilineBody quote escapes fuel t)
      | none =>
        if isPrinting c then prepend [c] (multilineBody quote escapes fuel t) else none

/-- The text after the line break that may follow three opening quotes. -/
def skipFirstBreak (t : Text) : Text := (lineBreak? t).getD t

/-- Reads a string on one line. -/
def lineString : Reader Text
  | '"' :: t => basicBody (t.length + 1) t
  | '\'' :: t => literalBody t
  | _ => none

/-- Reads a string. -/
def string : Reader Text
  | '"' :: '"' :: '"' :: t => multilineBody '"' true (t.length + 1) (skipFirstBreak t)
  | '\'' :: '\'' :: '\'' :: t => multilineBody '\'' false (t.length + 1) (skipFirstBreak t)
  | t => lineString t

/-! ## Numbers -/

/-- The digits of a run in which underscores may stand between digits. -/
def digitRun (isDigit : Char → Bool) : Reader Text
  | [] => none
  | c :: t => if isDigit c then (more t).map fun (digits, rest) => (c :: digits, rest) else none
where
  /-- The digits after the first. -/
  more : Reader Text
    | [] => some ([], [])
    | '_' :: [] => none
    | '_' :: c :: t =>
      if isDigit c then (more t).map fun (digits, rest) => (c :: digits, rest) else none
    | c :: t =>
      if isDigit c then (more t).map fun (digits, rest) => (c :: digits, rest)
      else some ([], c :: t)

/-- Whether a sign is a minus, and the text after the sign. -/
def sign : Text → Bool × Text
  | '-' :: t => (true, t)
  | '+' :: t => (false, t)
  | t => (false, t)

/-- The digits of a decimal number without leading zeros. -/
def decimalDigits : Reader Text
  | '0' :: t => some (['0'], t)
  | t => digitRun Char.isDigit t

/-- A whole number that fits 64 bits. -/
def within64 (n : Int) : Option Value :=
  if Int64.minValue.toInt ≤ n ∧ n ≤ Int64.maxValue.toInt then some (.integer n) else none

/-- Reads the digits of a whole number in a base. -/
def based (base : Nat) : Reader Value := fun t => do
  let isDigit := fun c => (hexDigit? c).any (· < base)
  let (digits, rest) ← digitRun isDigit t
  let n := digits.foldl (fun n c => base * n + (hexDigit? c).getD 0) 0
  return (← within64 n, rest)

/-- Reads a whole number. -/
def integer : Reader Value
  | '0' :: 'x' :: t => based 16 t
  | '0' :: 'o' :: t => based 8 t
  | '0' :: 'b' :: t => based 2 t
  | t => do
    let (negative, t) := sign t
    let (digits, rest) ← decimalDigits t
    let n : Int := Nat.ofDigitChars 10 digits 0
    return (← within64 (if negative then -n else n), rest)

/-- The binary number nearest to a whole number of units of a power of ten.
Exponents far outside the range of the format are not computed with. -/
def scaled (negative : Bool) (coefficient : Nat) (exponent : Int) : Binary64 :=
  let order := exponent + (Nat.toDigits 10 coefficient).length
  if coefficient = 0 ∨ order < -400 then .ofParts negative 0
  else if 400 < order then .ofParts negative Binary64.infiniteMagnitude
  else if 0 ≤ exponent then .ofQuotient negative (coefficient * Nat.pow 10 exponent.toNat) 1
  else .ofQuotient negative coefficient (Nat.pow 10 (-exponent).toNat)

/-- Reads the digits after a point.  Without a point there are none. -/
def fraction : Reader Text
  | '.' :: t => digitRun Char.isDigit t
  | t => some ([], t)

/-- Reads an exponent, which is none at all where no letter e stands. -/
def exponent? : Reader (Option Int)
  | c :: t =>
    if c = 'e' ∨ c = 'E' then do
      let (negative, t) := sign t
      let (digits, rest) ← digitRun Char.isDigit t
      let n : Int := Nat.ofDigitChars 10 digits 0
      return (some (if negative then -n else n), rest)
    else some (none, c :: t)
  | [] => some (none, [])

/-- Reads a number with a point or an exponent, or one that is not finite. -/
def float : Reader Value := fun t =>
  let (negative, t) := sign t
  match t with
  | 'i' :: 'n' :: 'f' :: rest =>
    some (.float (.ofParts negative Binary64.infiniteMagnitude), rest)
  | 'n' :: 'a' :: 'n' :: rest =>
    some (.float (.ofParts negative (Binary64.infiniteMagnitude + 1)), rest)
  | t => do
    let (whole, t) ← decimalDigits t
    let (decimals, t) ← fraction t
    let (power, rest) ← exponent? t
    if decimals.isEmpty ∧ power.isNone then none
    else
      let coefficient := Nat.ofDigitChars 10 (whole ++ decimals) 0
      let x := scaled negative coefficient (power.getD 0 - decimals.length)
      if x = .ofParts false Binary64.infiniteMagnitude then none else some (.float x, rest)

/-! ## Dates and times -/

/-- Reads a number of exactly so many digits within bounds. -/
def fixedDigits (count least most : Nat) : Reader Nat := fun t =>
  let digits := t.take count
  let n := Nat.ofDigitChars 10 digits 0
  if digits.length = count ∧ digits.all Char.isDigit ∧ least ≤ n ∧ n ≤ most then
    some (n, t.drop count)
  else none

/-- The text after a given character. -/
def after? (c : Char) : Text → Option Text
  | d :: t => if d = c then some t else none
  | [] => none

/-- The number of days of a month. -/
def monthDays (year month : Nat) : Nat :=
  if month = 2 then
    if year % 4 = 0 ∧ (year % 100 ≠ 0 ∨ year % 400 = 0) then 29 else 28
  else if month = 4 ∨ month = 6 ∨ month = 9 ∨ month = 11 then 30
  else 31

/-- The text after a date. -/
def date? (t : Text) : Option Text := do
  let (year, t) ← fixedDigits 4 0 9999 t
  let (month, t) ← fixedDigits 2 1 12 (← after? '-' t)
  let (_, t) ← fixedDigits 2 1 (monthDays year month) (← after? '-' t)
  return t

/-- The text after a time of the day. -/
def time? (t : Text) : Option Text := do
  let (_, t) ← fixedDigits 2 0 23 t
  let (_, t) ← fixedDigits 2 0 59 (← after? ':' t)
  let (_, t) ← fixedDigits 2 0 60 (← after? ':' t)
  match t with
  | '.' :: c :: rest => return if c.isDigit then rest.dropWhile Char.isDigit else t
  | _ => return t

/-- The text after a distance from universal time, which may be missing. -/
def skipOffset (t : Text) : Text :=
  match t with
  | c :: rest =>
    if c = 'Z' ∨ c = 'z' then rest
    else if c = '+' ∨ c = '-' then
      (do
        let (_, t) ← fixedDigits 2 0 23 rest
        let (_, t) ← fixedDigits 2 0 59 (← after? ':' t)
        return t).getD t
    else t
  | [] => t

/-- The text after the time that may follow a date. -/
def skipTime (t : Text) : Text :=
  match t with
  | c :: rest =>
    if c = 'T' ∨ c = 't' ∨ c = ' ' then ((time? rest).map skipOffset).getD t else t
  | [] => t

/-- Reads a date, a time, or both. -/
def datetime : Reader Value := fun t => do
  let rest ← ((date? t).map skipTime).or (time? t)
  return (.datetime (t.take (t.length - rest.length)), rest)

/-! ## Scalars -/

/-- Reads a value that has no parts. -/
def scalar : Reader Value := fun t =>
  match t with
  | 't' :: 'r' :: 'u' :: 'e' :: rest => some (.boolean true, rest)
  | 'f' :: 'a' :: 'l' :: 's' :: 'e' :: rest => some (.boolean false, rest)
  | '"' :: _ | '\'' :: _ => (string t).map fun (content, rest) => (.string content, rest)
  | _ => (datetime t).or ((float t).or (integer t))

end Lexicon.Toml
