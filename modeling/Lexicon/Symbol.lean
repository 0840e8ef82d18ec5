import Std.Data.HashMap
import Lexicon.Decimal.Binary64

/-!
# Symbols

A symbol stands for a value, so that equal values need not be compared again.
Symbols are issued by a table.  The first time a value is interned it gets the
next free index, and later the same symbol again.  The table finds the symbol of
a value in a hash map and the value of a symbol in an array.

An index has 32 bits.  The table is meant for at most `2 ^ 32` different values,
and the indices start again from zero after that.

The table counts its work.  A hit is a call that found its value, and a miss is
one that added it.  Looking up a symbol is not counted.
-/

namespace Lexicon

/-- A short stand-in for an interned value. -/
structure Symbol where
  /-- The position of the value in its table. -/
  index : UInt32
deriving DecidableEq, Repr, Hashable

namespace Symbol

/-- Symbols are in the order in which they were first issued. -/
def precedes (a b : Symbol) : Bool := decide (a.index < b.index)

end Symbol

/-- The values interned so far, with their symbols and the counts of calls. -/
structure SymbolTable (α : Type) [BEq α] [Hashable α] where
  /-- The index of each value. -/
  index : Std.HashMap α UInt32
  /-- The values by index. -/
  values : Array α
  /-- How many calls found their value. -/
  hits : Nat
  /-- How many calls added their value. -/
  misses : Nat

namespace SymbolTable

variable {α : Type} [BEq α] [Hashable α]

/-- The table without values. -/
def empty : SymbolTable α := ⟨∅, #[], 0, 0⟩

/-- The symbol of a value, which is added if it is new. -/
def intern (table : SymbolTable α) (value : α) : Symbol × SymbolTable α :=
  match table.index[value]? with
  | some i => (⟨i⟩, { table with hits := table.hits + 1 })
  | none =>
    let i := UInt32.ofNat table.values.size
    (⟨i⟩,
      { index := table.index.insert value i
        values := table.values.push value
        hits := table.hits
        misses := table.misses + 1 })

/-- The value of a symbol, if the table has issued it. -/
def get? (table : SymbolTable α) (s : Symbol) : Option α := table.values[s.index.toNat]?

/-- The number of values. -/
def count (table : SymbolTable α) : Nat := table.values.size

/-- Interns values in order. -/
def internAll (table : SymbolTable α) : List α → List Symbol × SymbolTable α
  | [] => ([], table)
  | value :: rest =>
    let (symbol, table) := table.intern value
    let (symbols, table) := table.internAll rest
    (symbol :: symbols, table)
termination_by structural values => values

/-- What a user is told about a symbol that the table has not issued. -/
def notIssued (s : Symbol) : String := "Symbol not found: index " ++ toString s.index.toNat

/-! ## The hit rate -/

/-- The share of hits among all calls, rounded to the nearest binary number
after each of the two counts has been.  Without calls it is zero. -/
def hitRate (hits misses : UInt64) : Binary64 :=
  let total := hits + misses
  if total = 0 then Binary64.ofParts false 0
  else (Binary64.ofNat hits.toNat).divide (Binary64.ofNat total.toNat)

/-- The share of hits among all calls so far. -/
def rate (table : SymbolTable α) : Binary64 :=
  hitRate (UInt64.ofNat table.hits) (UInt64.ofNat table.misses)

end SymbolTable

end Lexicon
