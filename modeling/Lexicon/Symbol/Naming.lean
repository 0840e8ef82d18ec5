import Lexicon.Symbol
import Lexicon.TokenStream.Interning

/-!
# Names as symbols

A table of names is an interner: a name is kept as its symbol.  One call is made for every
name, and none for any other token.  Several sources may share a table.
-/

namespace Lexicon

/-- A table of names. -/
abbrev NameTable := SymbolTable Text

namespace NameTable

/-- A token with its name interned. -/
def internToken (table : NameTable) (t : Token Text) : Token Symbol × NameTable :=
  t.interned SymbolTable.intern table

/-- Tokens with their names interned, first token first. -/
def internTokens (table : NameTable) : List (Token Text) → List (Token Symbol) × NameTable
  | [] => ([], table)
  | t :: ts =>
    let (interned, table) := table.internToken t
    let (rest, table) := internTokens table ts
    (interned :: rest, table)
termination_by structural ts => ts

/-- The tokens of a source with their names interned while they are read. -/
def scan (table : NameTable) (source : Text) : List (Lexeme Symbol) × NameTable :=
  Scan.named SymbolTable.intern table source

/-- A token whose symbols are resolved.  A symbol that the table has not issued
stands for the empty name. -/
def resolve (table : NameTable) (t : Token Symbol) : Token Text :=
  t.map fun s => (table.get? s).getD []

end NameTable

end Lexicon
