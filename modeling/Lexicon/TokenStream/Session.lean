import Lexicon.Symbol.History
import Lexicon.Symbol.Naming
import Lexicon.TokenStream.Reader

/-!
# Sessions

In a session several readers share a table of names.  Each reads a source of its own and
collects its own diagnostics.  Between two requests of a reader the other readers may make any
number of theirs, and the table may be called by others who read nothing.

`Session.make` is one move, and `Session.makeAll` a list of moves.  What is delivered comes
with the number of its reader.
-/

namespace Lexicon

/-- Readers that share a table of names. -/
structure Session where
  /-- The table. -/
  table : NameTable
  /-- The readers. -/
  readers : List Reader

namespace Session

/-- One thing done in a session. -/
inductive Move where
  /-- A reader asks for its next token. -/
  | draw (reader : Nat)
  /-- Someone else calls the table. -/
  | call (call : SymbolTable.Call Text)
deriving DecidableEq, Repr

/-- What a reader is given for a request. -/
structure Delivery where
  /-- The reader. -/
  reader : Nat
  /-- The token, unless there is none left. -/
  lexeme? : Option (Lexeme Symbol)
deriving DecidableEq, Repr

/-- The session of readers of whole sources, each with what it has collected before. -/
def start (table : NameTable) (sources : List (Text × List Diagnostic)) : Session :=
  ⟨table, sources.map fun source => Reader.ofText source.1 source.2⟩

/-- Makes a move.  Nothing happens when there is no such reader. -/
def make (s : Session) : Move → List Delivery × Session
  | .draw i =>
    match s.readers[i]? with
    | none => ([], s)
    | some r =>
      let draw := r.stream.nextNamed SymbolTable.intern s.table
      ([⟨i, draw.lexeme?⟩],
        ⟨draw.state, s.readers.set i ⟨draw.stream, r.collected ++ draw.reports⟩⟩)
  | .call c => ([], { s with table := (s.table.call c).2 })

/-- Makes one move after another. -/
def makeAll (s : Session) : List Move → List Delivery × Session
  | [] => ([], s)
  | move :: moves =>
    let (first, s) := s.make move
    let (others, s) := s.makeAll moves
    (first ++ others, s)
termination_by structural moves => moves

end Session

end Lexicon
