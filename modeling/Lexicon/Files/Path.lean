import Lexicon.Text

/-!
# Paths

A path names a file by the names on the way to it, with slashes between them.
It is kept as it was written, since messages repeat it.  Its pieces are what
stands between the slashes.  An empty piece and a single dot stay where they
are, and two dots lead back.  So the same file has many paths.

The parent of a path leaves its last name out, together with the pieces around
it that lead nowhere.
-/

namespace Lexicon

/-- A path as it was written. -/
abbrev Path := Text

namespace Path

/-- What stands between the slashes. -/
def pieces : Path → List Text
  | [] => [[]]
  | c :: p =>
    if c = '/' then [] :: pieces p
    else
      match pieces p with
      | [] => [[c]]
      | piece :: rest => (c :: piece) :: rest
termination_by structural p => p

/-- Whether a path starts at the root. -/
def isAbsolute (p : Path) : Bool := p.head? == some '/'

/-- Whether a path ends in a slash. -/
def endsInSlash (p : Path) : Bool := p.getLast? == some '/'

/-- The pieces that lead somewhere, and a dot at the start. -/
def parts (p : Path) : List Text :=
  let leads (piece : Text) : Bool := !piece.isEmpty && piece != ['.']
  match pieces p with
  | ['.'] :: rest => ['.'] :: rest.filter leads
  | all => all.filter leads

/-- The path of a name in a directory. -/
def join (directory name : Path) : Path :=
  if isAbsolute name || directory.isEmpty then name
  else if endsInSlash directory then directory ++ name
  else directory ++ '/' :: name

/-- Pieces without those at the end that lead nowhere. -/
def trimmed (pieces : List Text) : List Text :=
  (pieces.reverse.dropWhile fun piece => piece.isEmpty || piece == ['.']).reverse

/-- The path without its last name, written as it was up to there.  The empty
path has no parent, and neither has the root. -/
def parent? (p : Path) : Option Path :=
  match pieces p with
  | [] => none
  | first :: rest =>
    if (trimmed rest).isEmpty then if first.isEmpty then none else some []
    else
      let above := first :: trimmed (trimmed rest).dropLast
      some (if above = [[]] then ['/'] else ['/'].intercalate above)

/-- Whether the path stands for the standard input.  It is a dash, and nothing
that leads elsewhere. -/
def isStandardInput (p : Path) : Bool := !isAbsolute p && parts p == [['-']]

/-- The path as a string. -/
def toString (p : Path) : String := String.ofList p

end Path

end Lexicon
