import Lexicon.Decimal.Binary64
import Lexicon.Token.Mark
import Lexicon.Token.Word

/-!
# Tokens

A token is a classified unit of source text.  Marks and reserved words carry
nothing else, and every other token carries its value.  A name is carried as
whatever the user of the token keeps names as: its text, or the symbol that a
table issued for it.  A string literal carries its content with the escapes
already resolved.

The invalid token holds the rest of a source from which no further token can be
read.  Nothing follows it.

The kind of a token is the token without its value.
-/

namespace Lexicon

/-! ## Kinds -/

/-- What sort of token a token is. -/
inductive Kind where
  /-- A number with a point. -/
  | float
  /-- A whole number. -/
  | int
  /-- A name. -/
  | name
  /-- A string literal. -/
  | string
  /-- A punctuation mark. -/
  | mark (m : Mark)
  /-- A reserved word. -/
  | word (w : Word)
  /-- The unreadable rest of a source. -/
  | invalid
deriving DecidableEq, Repr

namespace Kind

/-- The name of a kind in listings. -/
def label : Kind → String
  | float => "FLOAT"
  | int => "INT"
  | name => "NAME"
  | string => "STRING"
  | mark .openParen => "OPAREN"
  | mark .closeParen => "CPAREN"
  | mark .openBrace => "OBRACE"
  | mark .closeBrace => "CBRACE"
  | mark .comma => "COMMA"
  | mark .semicolon => "SEMICOLON"
  | mark .period => "PERIOD"
  | word .define => "DEF"
  | word .cond => "IF"
  | word .function => "FUN"
  | word .negation => "NOT"
  | word .conjunction => "AND"
  | word .disjunction => "OR"
  | invalid => "INVALID"

end Kind

/-! ## Tokens -/

/-- A token whose names are kept as `ν`. -/
inductive Token (ν : Type) where
  /-- A number with a point. -/
  | float (value : Binary64)
  /-- A whole number. -/
  | int (value : Int64)
  /-- A name. -/
  | name (name : ν)
  /-- The content of a string literal. -/
  | string (content : Text)
  /-- A punctuation mark. -/
  | mark (m : Mark)
  /-- A reserved word. -/
  | word (w : Word)
  /-- The unreadable rest of a source. -/
  | invalid (rest : Text)
deriving DecidableEq, Repr, BEq

namespace Token

variable {ν μ : Type}

/-- The kind of a token. -/
def kind : Token ν → Kind
  | float _ => .float
  | int _ => .int
  | name _ => .name
  | string _ => .string
  | mark m => .mark m
  | word w => .word w
  | invalid _ => .invalid

/-- Whether the token is the unreadable rest of a source. -/
def isInvalid : Token ν → Bool
  | invalid _ => true
  | _ => false

/-- The same token with its name kept differently. -/
def map (f : ν → μ) : Token ν → Token μ
  | float x => .float x
  | int n => .int n
  | name v => .name (f v)
  | string s => .string s
  | mark m => .mark m
  | word w => .word w
  | invalid t => .invalid t

/-- The name a token carries, if it is one. -/
def name? : Token ν → Option ν
  | name v => some v
  | _ => none

@[simp] theorem kind_map (f : ν → μ) (t : Token ν) : (t.map f).kind = t.kind := by cases t <;> rfl

@[simp] theorem isInvalid_map (f : ν → μ) (t : Token ν) :
    (t.map f).isInvalid = t.isInvalid := by
  cases t <;> rfl

@[simp] theorem map_id (t : Token ν) : t.map id = t := by cases t <;> rfl

theorem map_map {ξ : Type} (f : ν → μ) (g : μ → ξ) (t : Token ν) :
    (t.map f).map g = t.map (g ∘ f) := by
  cases t <;> rfl

theorem isInvalid_iff {t : Token ν} : t.isInvalid = true ↔ ∃ rest, t = .invalid rest := by
  cases t <;> simp [isInvalid]

end Token

end Lexicon
