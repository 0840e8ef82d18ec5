import Lexicon.Text
import Lexicon.Decimal.Binary64

/-!
# TOML values

The values of a TOML document: strings, numbers, booleans, dates and times,
arrays and tables.  A date or time is kept as it is written.  The entries of a
table are in the order of the document, and no two of them have the same key.
-/

namespace Lexicon.Toml

/-- A value of a document. -/
inductive Value where
  /-- A string. -/
  | string (content : Text)
  /-- A whole number. -/
  | integer (value : Int)
  /-- A number with a point or an exponent, or one that is not finite. -/
  | float (value : Binary64)
  /-- A truth value. -/
  | boolean (value : Bool)
  /-- A date, a time, or both. -/
  | datetime (written : Text)
  /-- An array. -/
  | array (items : List Value)
  /-- A table. -/
  | table (entries : List (Text × Value))

namespace Value

/-- Whether the value is an array or a table without content. -/
def isEmptyCollection : Value → Bool
  | array [] => true
  | table [] => true
  | _ => false

end Value

end Lexicon.Toml
