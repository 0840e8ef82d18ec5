import Lexicon.Symbol

/-!
# Calls to a table

A table is asked to intern a value, to look up a symbol, or to tell its counts.  Only the
first of these changes it.  A symbol that has not been issued is reported as such.
-/

namespace Lexicon.SymbolTable

/-- The counts of a table. -/
structure Stats where
  /-- The number of values. -/
  count : Nat
  /-- How many calls found their value. -/
  hits : Nat
  /-- How many calls added their value. -/
  misses : Nat
deriving DecidableEq, Repr

/-- A call to a table. -/
inductive Call (α : Type) where
  /-- Intern a value. -/
  | intern (value : α)
  /-- Look up a symbol. -/
  | get (symbol : Symbol)
  /-- Tell the counts. -/
  | stats
deriving DecidableEq, Repr

/-- The reply to a call. -/
inductive Reply (α : Type) where
  /-- The symbol of a value. -/
  | symbol (symbol : Symbol)
  /-- The value of a symbol. -/
  | value (value : α)
  /-- The symbol has not been issued. -/
  | notIssued (symbol : Symbol)
  /-- The counts. -/
  | stats (stats : Stats)
deriving DecidableEq, Repr

variable {α : Type} [BEq α] [Hashable α]

/-- The counts of a table. -/
def stats (table : SymbolTable α) : Stats := ⟨table.count, table.hits, table.misses⟩

/-- The reply to a call, and the table after it. -/
def call (table : SymbolTable α) : Call α → Reply α × SymbolTable α
  | .intern value =>
    let (symbol, table) := table.intern value
    (.symbol symbol, table)
  | .get symbol =>
    match table.get? symbol with
    | some value => (.value value, table)
    | none => (.notIssued symbol, table)
  | .stats => (.stats table.stats, table)

/-- The replies to calls, one after another, and the table after all of them. -/
def callAll (table : SymbolTable α) : List (Call α) → List (Reply α) × SymbolTable α
  | [] => ([], table)
  | first :: rest =>
    let (reply, table) := table.call first
    let (replies, table) := table.callAll rest
    (reply :: replies, table)
termination_by structural calls => calls

end Lexicon.SymbolTable
