import Lexicon.Text.Capital

/-!
# Reserved words

Six words are reserved.  They are recognised in any mixture of upper and lower
case, by comparing upper-case forms.  The upper case of a text is the full one,
so the dotless i counts as the letter whose capital it shares.
-/

namespace Lexicon

/-- A reserved word. -/
inductive Word where
  /-- Opens a definition. -/
  | define
  /-- Opens a conditional. -/
  | cond
  /-- Opens a function. -/
  | function
  /-- Logical negation. -/
  | negation
  /-- Logical conjunction. -/
  | conjunction
  /-- Logical disjunction. -/
  | disjunction
deriving DecidableEq, Repr

namespace Word

/-- All reserved words. -/
def all : List Word := [define, cond, function, negation, conjunction, disjunction]

/-- The word in lower case. -/
def spelling : Word → Text
  | define => ['d', 'e', 'f']
  | cond => ['i', 'f']
  | function => ['f', 'u', 'n']
  | negation => ['n', 'o', 't']
  | conjunction => ['a', 'n', 'd']
  | disjunction => ['o', 'r']

/-- Whether two texts differ at most in the case of their ASCII letters. -/
def sameLetters (a b : Text) : Bool := a.map Char.toLower == b.map Char.toLower

/-- The reserved word a text stands for. -/
def ofText? (t : Text) : Option Word := all.find? (sameLetters t.upperCase ·.spelling)

theorem mem_all (w : Word) : w ∈ all := by cases w <;> decide

theorem ofText?_spelling (w : Word) : ofText? w.spelling = some w := by
  cases w <;> decide +kernel

end Word

end Lexicon
