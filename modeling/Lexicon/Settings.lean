import Lexicon.Failure
import Lexicon.Listing
import Lexicon.Toml.Document

/-!
# Settings

The settings of a user: the format of listings, whether listings show spans, and
whether an audit stops at the first source that is at fault.  They are kept in a
TOML document with a table for listings and one for audits.

Every entry may be left out, and so may each table.  Entries of other names are
ignored.  A table may also be written as an array of its values in order, of
which the last ones may be missing.  The format is one of its two names, in
lower case, or a table in which such a name is the only key and stands for
nothing.
-/

namespace Lexicon

/-- The settings of a user. -/
structure Settings where
  /-- The format of listings. -/
  format : Listing.Format := .text
  /-- Whether listings show spans. -/
  showSpans : Bool := false
  /-- Whether an audit stops at the first source at fault. -/
  failFast : Bool := false
deriving DecidableEq, Repr, Inhabited

namespace Settings

open Toml (Value)

/-! ## Writing -/

/-- A truth value as a document shows it. -/
def boolLabel (b : Bool) : String := if b then "true" else "false"

/-- The document that holds the settings. -/
def document (s : Settings) : String :=
  "[output]\nformat = \"" ++ s.format.label ++ "\"\nshow_spans = " ++ boolLabel s.showSpans ++
    "\n\n[check]\nfail_fast = " ++ boolLabel s.failFast ++ "\n"

/-! ## Reading -/

/-- A truth value. -/
def readBool : Value → Option Bool
  | .boolean b => some b
  | _ => none

/-- The format whose name is written in lower case. -/
def readName (name : Text) : Option Listing.Format :=
  [Listing.Format.text, .json].find? (·.label.toList == name)

/-- The format of listings. -/
def readFormat : Value → Option Listing.Format
  | .string name => readName name
  | .table [(name, content)] => if content.isEmptyCollection then readName name else none
  | _ => none

/-- What a reader makes of a value that may be missing. -/
def optional {α : Type} (read : Value → Option α) (default : α) : Option Value → Option α
  | none => some default
  | some v => read v

/-- The table for listings: the format and whether spans are shown. -/
def readListings (v : Value) : Option (Listing.Format × Bool) :=
  match v with
  | .table entries => read (entries.lookup "format".toList) (entries.lookup "show_spans".toList)
  | .array items => read items[0]? items[1]?
  | .datetime _ => read none none
  | _ => none
where
  /-- The two entries. -/
  read (format showSpans : Option Value) : Option (Listing.Format × Bool) := do
    return (← optional readFormat .text format, ← optional readBool false showSpans)

/-- The table for audits: whether they stop early. -/
def readAudits (v : Value) : Option Bool :=
  match v with
  | .table entries => optional readBool false (entries.lookup "fail_fast".toList)
  | .array items => optional readBool false items[0]?
  | .datetime _ => some false
  | _ => none

/-- The settings in the entries of a document. -/
def ofEntries (entries : List (Text × Value)) : Option Settings := do
  let (format, showSpans) ← optional readListings (.text, false) (entries.lookup "output".toList)
  let failFast ← optional readAudits false (entries.lookup "check".toList)
  return { format, showSpans, failFast }

/-- The settings in a document. -/
def ofDocument (t : Text) : Except Failure Settings :=
  match (Toml.parse? t).bind ofEntries with
  | some settings => .ok settings
  | none => .error .settingsMalformed

end Settings

end Lexicon
