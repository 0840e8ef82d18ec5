import Lexicon.Text

/-!
# Punctuation and boundaries

Seven characters are tokens by themselves, the punctuation marks.  Four are
blanks and separate tokens: the space, the tab, the carriage return and the
line feed.  No other character is blank, whatever its class elsewhere.

Both kinds are boundaries.  A number, a name and a string literal must each be
followed by a boundary or by the end of the text, which `atBoundary` tests.
-/

namespace Lexicon

/-- A punctuation mark. -/
inductive Mark where
  /-- The opening parenthesis. -/
  | openParen
  /-- The closing parenthesis. -/
  | closeParen
  /-- The opening brace. -/
  | openBrace
  /-- The closing brace. -/
  | closeBrace
  /-- The comma. -/
  | comma
  /-- The semicolon. -/
  | semicolon
  /-- The period. -/
  | period
deriving DecidableEq, Repr

namespace Mark

/-- All marks. -/
def all : List Mark :=
  [openParen, closeParen, openBrace, closeBrace, comma, semicolon, period]

/-- The character of a mark. -/
def char : Mark → Char
  | openParen => '('
  | closeParen => ')'
  | openBrace => '{'
  | closeBrace => '}'
  | comma => ','
  | semicolon => ';'
  | period => '.'

/-- The mark of a character, if it is one. -/
def ofChar? (c : Char) : Option Mark := all.find? (·.char == c)

theorem mem_all (m : Mark) : m ∈ all := by cases m <;> decide

theorem ofChar?_char (m : Mark) : ofChar? m.char = some m := by cases m <;> decide

theorem char_of_ofChar? {c : Char} {m : Mark} (h : ofChar? c = some m) : m.char = c := by
  simpa using List.find?_some h

theorem ofChar?_eq_some_iff {c : Char} {m : Mark} : ofChar? c = some m ↔ m.char = c :=
  ⟨char_of_ofChar?, fun h => h ▸ ofChar?_char m⟩

end Mark

/-! ## Blanks and boundaries -/

/-- Whether a character separates tokens without being one. -/
def isBlank (c : Char) : Bool := c == ' ' || c == '\t' || c == '\r' || c == '\n'

/-- Whether a character may follow a number, a name or a string literal. -/
def isBoundary (c : Char) : Bool := isBlank c || (Mark.ofChar? c).isSome

namespace Text

/-- Whether a text starts with a boundary or has come to its end. -/
def atBoundary : Text → Bool
  | [] => true
  | c :: _ => isBoundary c

@[simp] theorem atBoundary_nil : atBoundary [] = true := rfl

@[simp] theorem atBoundary_cons (c : Char) (t : Text) : atBoundary (c :: t) = isBoundary c := rfl

/-- A text without the blanks at its end. -/
def trimEnd (t : Text) : Text := (t.reverse.dropWhile isBlank).reverse

/-- A text without the blanks at either end. -/
def trim (t : Text) : Text := trimEnd (t.dropWhile isBlank)

theorem trimEnd_append_blanks (t : Text) :
    t.trimEnd ++ (t.reverse.takeWhile isBlank).reverse = t := by
  rw [trimEnd, ← List.reverse_append, List.takeWhile_append_dropWhile, List.reverse_reverse]

theorem length_trim_le (t : Text) : (trim t).length ≤ t.length := by
  have h1 : (t.dropWhile isBlank).length ≤ t.length := (List.dropWhile_suffix _).length_le
  have h2 : ((t.dropWhile isBlank).reverse.dropWhile isBlank).length ≤
      (t.dropWhile isBlank).reverse.length := (List.dropWhile_suffix _).length_le
  simp only [trim, trimEnd, List.length_reverse] at *
  omega

end Text

end Lexicon
