import Lexicon.Failure
import Lexicon.Files.Tree

/-!
# Surroundings

What a command can learn from the machine it runs on: what is seen at each path,
the bytes waiting on the standard input, and the directories of the user.  The
standard input is read at once, and whoever reads it again finds it empty.

A tree of files makes surroundings in which every path is seen as the tree has
it.

A source is a text to be read together with the name under which messages speak
of it.  Its bytes must be the UTF-8 form of a text.
-/

namespace Lexicon

/-- What is seen at a path. -/
structure Sight where
  /-- Whether there is anything. -/
  isPresent : Bool
  /-- What reading it gives. -/
  content : Except DeviceError ByteArray

/-- What a command can learn from the machine it runs on. -/
structure Surroundings where
  /-- What is seen at a path. -/
  sight : Path → Sight
  /-- What waits on the standard input. -/
  input : ByteArray
  /-- The directory of the user. -/
  home : Option Path
  /-- The directory for the settings of programs. -/
  settingsHome : Option Path

/-- The surroundings in which the files are those of a tree. -/
def Files.Tree.surroundings (t : Files.Tree) (input : ByteArray)
    (home settingsHome : Option Path) : Surroundings where
  sight path := ⟨t.isPresent path, t.read path⟩
  input := input
  home := home
  settingsHome := settingsHome

/-- A text to be read and its name. -/
structure Source where
  /-- The name in messages. -/
  origin : String
  /-- The text. -/
  text : Text
deriving DecidableEq, Repr

namespace Surroundings

/-- The text with a given UTF-8 form. -/
def decode (bytes : ByteArray) : Except DeviceError Text :=
  match String.fromUTF8? bytes with
  | some s => .ok s.toList
  | none => .error .invalidUtf8

/-- The text of the file at a path. -/
def readText (s : Surroundings) (path : Path) : Except DeviceError Text := do
  decode (← (s.sight path).content)

/-- The source at a path, or on the standard input when there is no path or the
path stands for it. -/
def readSource (s : Surroundings) (path? : Option Path) : Except Failure Source × Surroundings :=
  match path?.filter (!Path.isStandardInput ·) with
  | some path =>
    let source := match s.readText path with
      | .ok text => .ok ⟨Path.toString path, text⟩
      | .error cause => .error (.unreadable (Path.toString path) cause)
    (source, s)
  | none =>
    let source := match decode s.input with
      | .ok text => .ok ⟨"<stdin>", text⟩
      | .error cause => .error (.device cause)
    (source, { s with input := .empty })

/-- The sources at several paths, in order. -/
def readSources (s : Surroundings) : List Path → List (Path × Except Failure Source)
  | [] => []
  | path :: paths =>
    let (source, s) := s.readSource (some path)
    (path, source) :: s.readSources paths
termination_by structural paths => paths

end Surroundings

end Lexicon
