import Lexicon.Symbol

/-!
# Sharing a table

Several workers may intern values in one table at the same time.  A call is then
a sequence of moves, and between two moves of a worker the others may make any
number of theirs.

A worker first looks for its value, and a hit is counted when it is there.  When
it is not, the worker waits for the lock of the table and looks again, since
another worker may have added the value in the meantime.  Only a worker that has
the lock adds a value.  It counts a miss, puts the value into the array and then
the index into the map, and gives the lock back.

`Sharing.move?` is one move, which is refused when the worker is not ready for
it, and `Sharing.run?` plays a list of moves.  `Sharing.race` gives each worker a
list of values to intern and lets all workers take turns.
-/

namespace Lexicon

/-- Where a worker is in a call. -/
inductive Sharing.Stage (α : Type) where
  /-- It has no call to finish. -/
  | idle
  /-- It is to look for its value. -/
  | looking (value : α)
  /-- It has found its value, and is to count a hit. -/
  | found (value : α) (symbol : Symbol)
  /-- It has not found its value, and wants the lock. -/
  | waiting (value : α)
  /-- It has the lock, and is to look again. -/
  | lookingAgain (value : α)
  /-- It has the lock and has found its value, and is to count a hit. -/
  | foundLate (value : α) (symbol : Symbol)
  /-- It has the lock and has not found its value, and is to count a miss. -/
  | missing (value : α)
  /-- It has the lock, and is to put its value into the array. -/
  | adding (value : α)
  /-- It has the lock, and is to put its index into the map. -/
  | indexing (value : α) (symbol : Symbol)
  /-- It has the lock, and is to give it back. -/
  | leaving (value : α) (symbol : Symbol)
deriving DecidableEq, Repr

/-- A finished call. -/
structure Sharing.Answer (α : Type) where
  /-- The worker that made it. -/
  worker : Nat
  /-- The value. -/
  value : α
  /-- The symbol. -/
  symbol : Symbol
deriving DecidableEq, Repr

/-- One thing a worker does. -/
inductive Sharing.Move (α : Type) where
  /-- A worker without a call starts one. -/
  | call (worker : Nat) (value : α)
  /-- A worker goes on with its call. -/
  | proceed (worker : Nat)
deriving DecidableEq, Repr

/-- A table and the workers that share it. -/
structure Sharing (α : Type) [BEq α] [Hashable α] where
  /-- The table. -/
  table : SymbolTable α
  /-- The worker that has the lock. -/
  owner? : Option Nat
  /-- Where each worker is. -/
  stages : List (Sharing.Stage α)
  /-- The finished calls, latest first. -/
  answers : List (Sharing.Answer α)

namespace Sharing

variable {α : Type} [BEq α] [Hashable α]

/-! ## Moves -/

/-- A number of workers without calls. -/
def start (table : SymbolTable α) (workers : Nat) : Sharing α :=
  ⟨table, none, List.replicate workers .idle, []⟩

/-- The same table with a worker at another stage. -/
def enter (s : Sharing α) (worker : Nat) (stage : Stage α) : Sharing α :=
  { s with stages := s.stages.set worker stage }

/-- The same table with the call of a worker finished. -/
def finish (s : Sharing α) (worker : Nat) (value : α) (symbol : Symbol) : Sharing α :=
  { s.enter worker .idle with answers := ⟨worker, value, symbol⟩ :: s.answers }

/-- A worker without a call starts one. -/
def call? (s : Sharing α) (worker : Nat) (value : α) : Option (Sharing α) :=
  match s.stages[worker]? with
  | some .idle => some (s.enter worker (.looking value))
  | _ => none

/-- A worker goes on with its call.  The lock can only be had when no worker has
it. -/
def proceed? (s : Sharing α) (worker : Nat) : Option (Sharing α) :=
  match s.stages[worker]? with
  | none | some .idle => none
  | some (.looking value) =>
    match s.table.index[value]? with
    | some i => some (s.enter worker (.found value ⟨i⟩))
    | none => some (s.enter worker (.waiting value))
  | some (.found value symbol) =>
    some { s.finish worker value symbol with
      table := { s.table with hits := s.table.hits + 1 } }
  | some (.waiting value) =>
    match s.owner? with
    | none => some { s.enter worker (.lookingAgain value) with owner? := some worker }
    | some _ => none
  | some (.lookingAgain value) =>
    match s.table.index[value]? with
    | some i => some (s.enter worker (.foundLate value ⟨i⟩))
    | none => some (s.enter worker (.missing value))
  | some (.foundLate value symbol) =>
    some { s.enter worker (.leaving value symbol) with
      table := { s.table with hits := s.table.hits + 1 } }
  | some (.missing value) =>
    some { s.enter worker (.adding value) with
      table := { s.table with misses := s.table.misses + 1 } }
  | some (.adding value) =>
    some { s.enter worker (.indexing value ⟨UInt32.ofNat s.table.values.size⟩) with
      table := { s.table with values := s.table.values.push value } }
  | some (.indexing value symbol) =>
    some { s.enter worker (.leaving value symbol) with
      table := { s.table with index := s.table.index.insert value symbol.index } }
  | some (.leaving value symbol) =>
    some { s.finish worker value symbol with owner? := none }

/-- What becomes of a move. -/
def move? (s : Sharing α) : Move α → Option (Sharing α)
  | .call worker value => s.call? worker value
  | .proceed worker => s.proceed? worker

/-- What becomes of a list of moves, none of which is refused. -/
def run? (s : Sharing α) (moves : List (Move α)) : Option (Sharing α) := moves.foldlM move? s

/-! ## Races -/

/-- The turn of a worker, which goes on with its call or starts one with its next
value.  It stays where it is when it can do neither. -/
def turn (worker : Nat) (s : Sharing α) (work : List (List α)) : Sharing α × List (List α) :=
  match s.proceed? worker with
  | some next => (next, work)
  | none =>
    match work[worker]? with
    | some (value :: values) =>
      match s.call? worker value with
      | some next => (next, work.set worker values)
      | none => (s, work)
    | _ => (s, work)

/-- So many rounds, in each of which every worker has a turn. -/
def rounds : Nat → Sharing α → List (List α) → Sharing α
  | 0, s, _ => s
  | n + 1, s, work =>
    let (s, work) := (List.range s.stages.length).foldl (fun (s, work) w => turn w s work) (s, work)
    rounds n s work

/-- All workers intern their values at the same time.  A call takes at most eight
moves, and in every round some worker moves, so there are enough rounds.  The
result holds the symbols of each worker, and the table. -/
def race (table : SymbolTable α) (work : List (List α)) : List (List Symbol) × SymbolTable α :=
  let calls := work.flatten.length
  let final := rounds (8 * calls) (start table work.length) work
  let symbolsOf (worker : Nat) : List Symbol :=
    (final.answers.reverse.filter (·.worker == worker)).map (·.symbol)
  ((List.range work.length).map symbolsOf, final.table)

end Sharing

end Lexicon
