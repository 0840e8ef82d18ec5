import Lexicon.Failure
import Lexicon.Files.Path

/-!
# File trees

A file tree is a value: for each location the file or directory found there.  A
location is the list of names from the root, and the root is a directory.  Paths
that do not start at the root start at the working directory.

A path leads to a location by its pieces, one after the other, and each piece
needs a directory to start from.  So a path through a file is refused, and a path
through nothing finds nothing.  A name is refused when it is longer than a file
can be called, and a path when it is too long as a whole or has a null character.

Saving a file makes the directories above it first.  A directory is made only
where there is nothing, and its own parent is made before it when that is
missing.
-/

namespace Lexicon.Files

/-- The names from the root to a place in the tree. -/
abbrev Location := List Text

/-- What is found at a location. -/
inductive Node where
  /-- A file and its bytes. -/
  | file (content : ByteArray)
  /-- A directory. -/
  | directory
deriving Inhabited

/-- The files and directories below the root, and the working directory. -/
structure Tree where
  /-- What is found where. -/
  nodes : List (Location × Node)
  /-- The working directory. -/
  here : Location

namespace Tree

/-- The node at a location. -/
def node? (t : Tree) (place : Location) : Option Node :=
  if place.isEmpty then some .directory else t.nodes.lookup place

/-- The tree with a node put at a location. -/
def put (t : Tree) (place : Location) (node : Node) : Tree :=
  { t with nodes := (place, node) :: t.nodes.filter (·.1 != place) }

/-- Whether a location holds a directory. -/
def isDirectory (t : Tree) (place : Location) : Bool :=
  match t.node? place with
  | some .directory => true
  | _ => false

/-! ## Following paths -/

/-- The number of bytes a name may have. -/
def nameLimit : Nat := 255

/-- The number of bytes a path may have. -/
def pathLimit : Nat := 4095

/-- Refuses the paths that no file has, wherever they would lead. -/
def permit (p : Path) : Except DeviceError Unit :=
  if p.isEmpty then .error (.system .noEntry)
  else if p.contains '\x00' then .error .nullInName
  else if pathLimit < Text.byteSize p then .error (.system .nameTooLong)
  else .ok ()

/-- The location to which pieces lead from another one. -/
def follow (t : Tree) : Location → List Text → Except SystemError Location
  | place, [] => .ok place
  | place, piece :: rest =>
    match t.node? place with
    | none => .error .noEntry
    | some (.file _) => .error .notDirectory
    | some .directory =>
      if piece.isEmpty || piece == ['.'] then follow t place rest
      else if piece == ['.', '.'] then follow t place.dropLast rest
      else if nameLimit < Text.byteSize piece then .error .nameTooLong
      else follow t (place ++ [piece]) rest
termination_by structural _ pieces => pieces

/-- The location of a path. -/
def locate (t : Tree) (p : Path) : Except DeviceError Location := do
  permit p
  (t.follow (if Path.isAbsolute p then [] else t.here) (Path.pieces p)).mapError .system

/-- The node of a path. -/
def find (t : Tree) (p : Path) : Except DeviceError Node := do
  match t.node? (← t.locate p) with
  | some node => return node
  | none => throw (.system .noEntry)

/-- Whether a path leads to something. -/
def isPresent (t : Tree) (p : Path) : Bool := (t.find p).toOption.isSome

/-- The bytes of the file of a path. -/
def read (t : Tree) (p : Path) : Except DeviceError ByteArray := do
  match ← t.find p with
  | .file content => return content
  | .directory => throw (.system .isDirectory)

/-! ## Making files and directories -/

/-- The path without the slashes at its end.  The root keeps its own. -/
def withoutSlashes (p : Path) : Path :=
  let rest := (p.reverse.dropWhile (· == '/')).reverse
  if rest.isEmpty then p else rest

/-- The tree with a new directory, whose parent must be there. -/
def makeDirectory (t : Tree) (p : Path) : Except DeviceError Tree := do
  permit p
  let place ← t.locate (withoutSlashes p)
  match t.node? place with
  | some _ => throw (.system .alreadyExists)
  | none => return t.put place .directory

/-- The tree with a directory and all that are missing above it, and the error
that stopped this.  What has been made until then is kept. -/
def makeDirectories (fuel : Nat) (t : Tree) (p : Path) : Tree × Option DeviceError :=
  let isThere (t : Tree) : Bool := (t.locate p).toOption.any t.isDirectory
  let make (t : Tree) : Tree × Option DeviceError :=
    match t.makeDirectory p with
    | .ok made => (made, none)
    | .error cause => (t, if isThere t then none else some cause)
  match fuel with
  | 0 => (t, none)
  | fuel + 1 =>
    if p.isEmpty then (t, none)
    else
      match t.makeDirectory p with
      | .error (.system .noEntry) =>
        match Path.parent? p with
        | none => (t, some (.system .noEntry))
        | some above =>
          match makeDirectories fuel t above with
          | (made, none) => make made
          | (made, some cause) => (made, some cause)
      | _ => make t

/-- The path of the directory in which the last name is looked up. -/
def holder (p : Path) : Path :=
  match ((withoutSlashes p).reverse.dropWhile (· != '/')).reverse with
  | [] => ['.']
  | above => above

/-- The tree with bytes written to the file of a path.  No file has a path that
ends in a slash, and this is seen before the last name is looked up. -/
def write (t : Tree) (p : Path) (content : ByteArray) : Except DeviceError Tree := do
  permit p
  if Path.endsInSlash p then
    let _ ← t.locate (holder p)
    throw (.system .isDirectory)
  let place ← t.locate p
  match t.node? place with
  | some .directory => throw (.system .isDirectory)
  | _ => return t.put place (.file content)

/-- The tree with a file saved in it, along with the directories above it, and
the error that prevented it. -/
def save (t : Tree) (p : Path) (content : ByteArray) : Tree × Option DeviceError :=
  let (t, stopped) := match Path.parent? p with
    | some above => t.makeDirectories (p.length + 1) above
    | none => (t, none)
  match stopped with
  | some cause => (t, some cause)
  | none =>
    match t.write p content with
    | .ok written => (written, none)
    | .error cause => (t, some cause)

/-! ## Comparing trees -/

/-- The files below a location that another tree does not have in this form,
each with its path from there. -/
def changesSince (t before : Tree) (place : Location) : List (Path × ByteArray) :=
  t.nodes.filterMap fun (found, node) =>
    match node with
    | .directory => none
    | .file content =>
      let isOld := match before.node? found with
        | some (.file old) => old == content
        | _ => false
      if place.isPrefixOf found && !isOld then
        some (['/'].intercalate (found.drop place.length), content)
      else none

end Tree

end Lexicon.Files
