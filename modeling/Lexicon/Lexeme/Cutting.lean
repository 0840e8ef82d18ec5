import Lexicon.Lexeme.Rules

/-!
# Reading by byte offsets

The rules of reading take a text apart character by character.  Here are the same rules for a
text that can only be cut at byte offsets.  They work out an offset, as a size, as a number of
digits among the bytes, or as the place where something has been found, and cut there.  Nothing
makes sure that such an offset lies within the text and between two characters, and a cut that
is not possible leaves the rule without a result.

So a rule that cuts has two ways of giving nothing.  It gives `none` when a cut is refused, and
`some none` when the text starts with something else.
-/

namespace Lexicon

/-! ## Offsets in a text -/

namespace Text

/-- The text from a byte offset on. -/
def dropBytes? (offset : Nat) (t : Text) : Option Text := (splitBytes? offset t).map (·.2)

/-- The characters with their byte offsets, the first one having the given offset. -/
def indexed (offset : Nat) : Text → List (Nat × Char)
  | [] => []
  | c :: t => (offset, c) :: indexed (offset + c.utf8Size) t

/-- The byte offset of the first place where a pattern stands. -/
def offsetOf? (pattern : Text) : Text → Option Nat
  | [] => if pattern.isEmpty then some 0 else none
  | c :: t => if pattern.isPrefixOf (c :: t) then some 0 else (offsetOf? pattern t).map (· + c.utf8Size)

/-- Whether a byte is that of a decimal digit. -/
def isDigitByte (b : UInt8) : Bool := decide (48 ≤ b) && decide (b ≤ 57)

/-- The number of bytes at the start of a text that are decimal digits. -/
def digitsSize (t : Text) : Nat := (t.bytes.takeWhile isDigitByte).length

/-- The size of the sign at the start of a text. -/
def signSize : Text → Nat
  | '+' :: _ => 1
  | '-' :: _ => 1
  | _ => 0

end Text

/-! ## Rules that cut -/

/-- A rule that cuts a text at byte offsets.  There is no result when a cut is refused. -/
abbrev CuttingRule := Text → Option (Option Reading)

namespace Lexeme.Cutting

open Text

/-- Reads a block comment. -/
def blockComment : CuttingRule
  | '/' :: '*' :: body =>
    match offsetOf? ['*', '/'] body with
    | none => some none
    | some close => do
      let rest ← dropBytes? (close + 2) body
      return some (.comment rest)
  | _ => some none

/-- Reads a line comment. -/
def lineComment : CuttingRule
  | '/' :: '/' :: body => do
    let rest ← dropBytes? ((offsetOf? ['\n'] body).getD (byteSize body)) body
    return some (.comment rest)
  | _ => some none

/-- The binary number that a whole literal with a point stands for. -/
def pointedValue (literal : Text) : Binary64 :=
  let (sign, unsigned) := splitSign literal
  floatValue sign (unsigned.takeWhile Char.isDigit) ((unsigned.dropWhile Char.isDigit).drop 1)

/-- Reads a number with a point. -/
def float : CuttingRule := fun text => do
  let unsigned ← dropBytes? (signSize text) text
  let point := signSize text + digitsSize unsigned
  match ← dropBytes? point text with
  | '.' :: fraction =>
    if digitsSize fraction = 0 then return none
    else
      let (literal, rest) ← splitBytes? (point + 1 + digitsSize fraction) text
      if !atBoundary rest then return none
      else if (pointedValue literal).isFinite then
        return some (.token (.float (pointedValue literal)) rest)
      else return some (.fault (.outOfRange literal))
  | _ => return none

/-- The whole number that a whole literal stands for. -/
def wholeValue (literal : Text) : Int := intValue (splitSign literal).1 (splitSign literal).2

/-- Reads a whole number. -/
def int : CuttingRule := fun text => do
  let unsigned ← dropBytes? (signSize text) text
  if digitsSize unsigned = 0 then return none
  else
    let (literal, rest) ← splitBytes? (signSize text + digitsSize unsigned) text
    if !atBoundary rest then return none
    else if fits (wholeValue literal) then
      return some (.token (.int (Int64.ofInt (wholeValue literal))) rest)
    else return some (.fault (.outOfRange literal))

/-- Reads a name or a reserved word. -/
def name : CuttingRule := fun text =>
  match indexed 0 text with
  | [] => some none
  | (_, first) :: others =>
    if !startsName first then some none
    else do
      let stop := ((others.find? fun entry => !continuesName entry.2).map (·.1)).getD text.byteSize
      let (run, rest) ← splitBytes? stop text
      if !atBoundary rest then return none
      else return some (.token (nameToken run) rest)

/-- Reads a punctuation mark. -/
def mark : CuttingRule
  | [] => some none
  | c :: t =>
    match Mark.ofChar? c with
    | none => some none
    | some m => do
      let rest ← dropBytes? c.utf8Size (c :: t)
      return some (.token (.mark m) rest)

/-! ## String literals -/

/-- What the character before says about a character of a literal. -/
inductive Escape where
  /-- The character stands for itself. -/
  | plain
  /-- The character is taken by a backslash. -/
  | escaped
deriving DecidableEq, Repr

/-- Goes over the characters of a body with their offsets, having the content so far. -/
def quotationLoop (body : Text) :
    List (Nat × Char) → Escape → Text → Option (Except Fault (Text × Text))
  | [], _, _ => some (.error .unterminated)
  | (_, '\\') :: others, .plain, content => quotationLoop body others .escaped content
  | (offset, '"') :: _, .plain, content => do
    let rest ← dropBytes? (offset + 1) body
    if atBoundary rest then return .ok (content, rest) else return .error .unseparated
  | (_, c) :: others, .plain, content => quotationLoop body others .plain (content ++ [c])
  | (_, c) :: others, .escaped, content =>
    quotationLoop body others .plain (content ++ [unescape c])

/-- What follows the opening quote of a literal: its content, and the text after it. -/
def quotationBody (body : Text) : Option (Except Fault (Text × Text)) :=
  quotationLoop body (indexed 0 body) .plain []

/-- Reads a string literal. -/
def quotation : CuttingRule
  | '"' :: body => do
    match ← quotationBody body with
    | .ok (content, rest) => return some (.token (.string content) rest)
    | .error cause => return some (.fault cause)
  | _ => some none

/-! ## The order of the rules -/

/-- All rules with their names, in the order in which they are tried. -/
def rules : List (String × CuttingRule) :=
  [("block comment", blockComment),
   ("line comment", lineComment),
   ("float", float),
   ("int", int),
   ("identifier", name),
   ("punctuation", mark),
   ("string", quotation)]

/-- What a text starts with.  There is no result when a rule that is tried has none. -/
def read (text : Text) : Option Reading := do
  let reading? ← rules.findSomeM? fun rule => rule.2 text
  return reading?.getD (.fault .unexpected)

end Lexeme.Cutting

end Lexicon
