import Lexicon.Toml.Scalar
import Lexicon.Toml.Table

/-!
# TOML documents

A document is a sequence of lines, each with a header, a key and its value, or
nothing, and possibly a comment.  A header names the table to which the keys
after it belong.  Keys have one or more parts between dots, each a word of
letters, digits, underscores and dashes, or a string on one line.

Arrays go over any number of lines and may have a comma at their end.  Tables
between braces stand on one line and may not.  Values are nested at most
`nesting` deep and keys have at most `nesting` parts.

`parse?` gives the entries of the outermost table, and nothing for a text that is
no document.
-/

namespace Lexicon.Toml

/-- How deep values may be nested. -/
def nesting : Nat := 79

/-! ## Keys -/

/-- Whether a character may stand in a key without quotes. -/
def isKeyChar (c : Char) : Bool := c.isAlphanum || c == '_' || c == '-'

/-- Reads one part of a key. -/
def keyPart : Reader Text := fun t =>
  match t with
  | '"' :: _ | '\'' :: _ => lineString t
  | _ =>
    let part := t.takeWhile isKeyChar
    if part.isEmpty then none else some (part, t.dropWhile isKeyChar)

/-- Reads the parts of a key with the gaps around them. -/
def keyParts : Nat → Reader (List Text)
  | 0, _ => none
  | fuel + 1, t => do
    let (part, t) ← keyPart (skipGaps t)
    match skipGaps t with
    | '.' :: t => do
      let (parts, rest) ← keyParts fuel t
      return (part :: parts, rest)
    | rest => return ([part], rest)

/-- A key: the parts before the last one, and the last one. -/
structure Key where
  /-- The parts before the last dot. -/
  path : List Text
  /-- The last part. -/
  name : Text

/-- Reads a key. -/
def key : Reader Key := fun t => do
  let (parts, rest) ← keyParts (t.length + 1) t
  let name ← parts.getLast?
  if parts.length ≤ nesting then return (⟨parts.dropLast, name⟩, rest) else none

/-! ## Values -/

/-- Reads the items of an array after its opening bracket. -/
def arrayItems (item : Reader Value) : Nat → Reader (List Value)
  | 0, _ => none
  | fuel + 1, t =>
    match skipLines t.length t with
    | ']' :: rest => some ([], rest)
    | t => do
      let (first, t) ← item t
      match skipLines t.length t with
      | ',' :: t => do
        let (items, rest) ← arrayItems item fuel t
        return (first :: items, rest)
      | ']' :: rest => return ([first], rest)
      | _ => none

/-- Reads a key and its value on one line. -/
def assignment (item : Reader Value) : Reader (Key × Value) := fun t => do
  let (k, t) ← key t
  let (v, rest) ← item (skipGaps (← after? '=' t))
  return ((k, v), rest)

/-- Reads the entries of a table between braces after the first brace, or after
a comma when some have been read. -/
def braceEntries (item : Reader Value) : Nat → Table → Reader Table
  | 0, _, _ => none
  | fuel + 1, table, t => do
    let ((k, v), t) ← assignment item t
    let table ← table.assign k.path k.name v
    match skipGaps t with
    | ',' :: t => braceEntries item fuel table t
    | '\x7d' :: rest => return (table, rest)
    | _ => none

/-- Reads a value in which others are nested so deep at most. -/
def value : Nat → Reader Value
  | 0, t => scalar t
  | depth + 1, t =>
    match t with
    | '[' :: t => do
      let (items, rest) ← arrayItems (value depth) (t.length + 1) t
      return (.array items, rest)
    | '\x7b' :: t =>
      match skipGaps t with
      | '\x7d' :: rest => some (.table [], rest)
      | t => do
        let (table, rest) ← braceEntries (value depth) (t.length + 1) Table.opened t
        return (.table table.toEntries, rest)
    | t => scalar t

/-! ## Lines -/

/-- Reads the key of a header and the closing brackets. -/
def header (closing : Text) : Reader Key := fun t => do
  let (k, t) ← key t
  if closing.isPrefixOf t then return (k, ← lineEnd? (t.drop closing.length)) else none

/-- The outermost table after the lines of a text, where the last header so far
leads to the table `here`. -/
def lines : Nat → List Text → Table → Text → Option Table
  | 0, _, _, _ => none
  | fuel + 1, here, root, t =>
    match skipGaps t with
    | [] => some root
    | '[' :: '[' :: t => do
      let (k, rest) ← header [']', ']'] t
      lines fuel (k.path ++ [k.name]) (← root.openTables k.path k.name) rest
    | '[' :: t => do
      let (k, rest) ← header [']'] t
      lines fuel (k.path ++ [k.name]) (← root.openTable k.path k.name) rest
    | t =>
      match lineEnd? t with
      | some rest => lines fuel here root rest
      | none => do
        let ((k, v), t) ← assignment (value nesting) t
        let root ← root.update false (·.assign k.path k.name v) here
        lines fuel here root (← lineEnd? t)

/-- The entries of the outermost table of a document.  A byte order mark at the
start is not part of the document. -/
def parse? (t : Text) : Option (List (Text × Value)) :=
  let t := match t with
    | '\uFEFF' :: t => t
    | t => t
  (lines (t.length + 1) [] Table.opened t).map Table.toEntries

end Lexicon.Toml
