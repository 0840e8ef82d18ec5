import Lexicon.Toml.Value

/-!
# Tables under construction

The tables of a document grow while it is read, and the grammar allows each of
them to be extended only in some ways.  So a table remembers how it came about.
It is implicit when only a longer name has mentioned it so far, and dotted when
this name was a key with dots rather than a header.

* A header opens a table that is new, or one that is implicit and not dotted.
* A header for an array of tables adds a table to an array that is new or was
  made by such headers.
* A key with dots goes through new tables and through dotted ones, and never
  into a table that a header has opened.
* A key is given a value once.

In a path, an array of tables stands for the last of its tables.
-/

namespace Lexicon.Toml

mutual

/-- What a key of a growing table stands for. -/
inductive Item where
  /-- A finished value. -/
  | value (v : Value)
  /-- A table that may still grow. -/
  | table (t : Table)
  /-- An array of tables, the last of which may still grow. -/
  | tables (earlier : List Table) (last : Table)

/-- A growing table. -/
inductive Table where
  /-- How it came about, and what it holds. -/
  | mk (implicit dotted : Bool) (entries : List (Text × Item))

end

namespace Table

/-- Whether only longer names have mentioned the table. -/
def implicit : Table → Bool
  | mk implicit _ _ => implicit

/-- Whether a key with dots has made the table. -/
def dotted : Table → Bool
  | mk _ dotted _ => dotted

/-- What the table holds. -/
def entries : Table → List (Text × Item)
  | mk _ _ entries => entries

/-- The table a header opens. -/
def opened : Table := mk false false []

/-- The item of a key. -/
def get? (t : Table) (key : Text) : Option Item := t.entries.lookup key

/-- The table with an item for a key, in the place of the one it had. -/
def set (t : Table) (key : Text) (item : Item) : Table :=
  let entries :=
    if (t.get? key).isSome then
      t.entries.map fun entry => if entry.1 = key then (key, item) else entry
    else t.entries ++ [(key, item)]
  mk t.implicit t.dotted entries

/-- The table with a change made to the table at the end of a path.  Tables
that are missing on the way are made, as dotted ones or not. -/
def update (byDots : Bool) (change : Table → Option Table) : List Text → Table → Option Table
  | [], t => change t
  | key :: path, t =>
    match t.get? key with
    | none => do
      let child ← update byDots change path (mk true byDots [])
      return t.set key (.table child)
    | some (.value _) => none
    | some (.tables earlier last) => do
      let child ← update byDots change path last
      return t.set key (.tables earlier child)
    | some (.table child) =>
      if byDots && !child.implicit then none
      else do
        let child ← update byDots change path child
        return t.set key (.table child)
termination_by structural path => path

/-- The table with a value for a key, whose dots lead through further tables. -/
def assign (t : Table) (path : List Text) (key : Text) (v : Value) : Option Table :=
  t.update true
    (fun inner =>
      if inner.dotted == path.isEmpty || (inner.get? key).isSome then none
      else some (inner.set key (.value v)))
    path

/-- The table after a header. -/
def openTable (t : Table) (path : List Text) (key : Text) : Option Table :=
  t.update false
    (fun outer =>
      match outer.get? key with
      | none => some (outer.set key (.table opened))
      | some (.table inner) =>
        if inner.implicit && !inner.dotted then
          some (outer.set key (.table (mk false false inner.entries)))
        else none
      | some (.value _) => none
      | some (.tables _ _) => none)
    path

/-- The table after a header for an array of tables. -/
def openTables (t : Table) (path : List Text) (key : Text) : Option Table :=
  t.update false
    (fun outer =>
      match outer.get? key with
      | none => some (outer.set key (.tables [] opened))
      | some (.tables earlier last) =>
        some (outer.set key (.tables (earlier ++ [last]) opened))
      | some (.table _) => none
      | some (.value _) => none)
    path

end Table

/-! ## Finished values -/

mutual

/-- The value of an item that has finished growing. -/
def Item.toValue : Item → Value
  | .value v => v
  | .table t => .table t.toEntries
  | .tables earlier last => .array (Table.toValues earlier ++ [.table last.toEntries])

/-- The entries of a table that has finished growing. -/
def Table.toEntries : Table → List (Text × Value)
  | .mk _ _ entries => Table.finished entries

/-- The values of tables that have finished growing. -/
def Table.toValues : List Table → List Value
  | [] => []
  | t :: ts => .table t.toEntries :: Table.toValues ts

/-- Entries that have finished growing. -/
def Table.finished : List (Text × Item) → List (Text × Value)
  | [] => []
  | (key, item) :: entries => (key, item.toValue) :: Table.finished entries

end

end Lexicon.Toml
