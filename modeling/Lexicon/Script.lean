import Lexicon.Files.Tree
import Lexicon.Log

/-!
# Scripts

A script is what a command does to the outside: the acts in order, and the
outcome when all of them succeed.  The acts are writes to the standard output,
reports to the user, entries of the log and files to be saved.

A performance plays a script.  Reports and log entries always succeed.  A write
goes to a sink, which may take a part of it and refuse the rest, and a file is
saved in a tree of files.  The first act that fails ends the performance, and
its error is the outcome.  An error is marked when it was met in the middle of a
JSON value.

There are three sorts of sinks.  One takes everything, one takes a number of
bytes and refuses what is beyond them, and one takes nothing but notices this
only when a line is complete.
-/

namespace Lexicon

/-! ## Scripts -/

/-- One thing a command does to the outside. -/
inductive Act where
  /-- Writes to the standard output. -/
  | write (text : Text)
  /-- Writes a JSON value to the standard output. -/
  | writeJson (text : Text)
  /-- Tells the user something. -/
  | report (message : String)
  /-- Makes a log entry. -/
  | log (entry : Log.Entry)
  /-- Saves a file. -/
  | save (path : Path) (content : Text)
deriving DecidableEq, Repr

/-- What a command does to the outside, and how it ends. -/
structure Script (α : Type) where
  /-- The acts in order. -/
  acts : List Act
  /-- The outcome when every act succeeds. -/
  outcome : Except Failure α

namespace Script

variable {α β : Type}

/-- The script that fails at once. -/
def failing (cause : Failure) : Script α := ⟨[], .error cause⟩

/-- The script with more acts before it. -/
def after (acts : List Act) (s : Script α) : Script α := { s with acts := acts ++ s.acts }

/-- The script with another outcome in the place of a success. -/
def map (f : α → β) (s : Script α) : Script β := ⟨s.acts, s.outcome.map f⟩

end Script

/-! ## Sinks -/

/-- Where the standard output goes. -/
inductive Sink where
  /-- Everything is taken. -/
  | unlimited
  /-- So many bytes are taken. -/
  | limited (room : Nat) (refusal : DeviceError)
  /-- The first complete line is refused, and nothing is taken. -/
  | full (refusal : DeviceError)
deriving DecidableEq, Repr

namespace Sink

/-- What a sink takes of a text, and the sink after that or the refusal. -/
def accept (sink : Sink) (t : Text) : List UInt8 × Except DeviceError Sink :=
  match sink with
  | unlimited => (t.bytes, .ok unlimited)
  | limited room refusal =>
    if t.byteSize ≤ room then (t.bytes, .ok (limited (room - t.byteSize) refusal))
    else (t.bytes.take room, .error refusal)
  | full refusal => ([], if t.contains '\n' then .error refusal else .ok (full refusal))

end Sink

/-! ## Performances -/

/-- What the user sees besides the output. -/
inductive Notice where
  /-- A report. -/
  | report (message : String)
  /-- A log entry. -/
  | log (entry : Log.Entry)
deriving DecidableEq, Repr

/-- What has become of a script. -/
structure Performance (α : Type) where
  /-- The bytes that the sink has taken. -/
  accepted : List UInt8
  /-- What the user has seen besides, in order. -/
  notices : List Notice
  /-- The files at the end. -/
  tree : Files.Tree
  /-- How it ended. -/
  outcome : Except Failure α

/-- What has become of one act. -/
structure Effect where
  /-- The bytes that the sink has taken. -/
  accepted : List UInt8
  /-- What the user has seen. -/
  notices : List Notice
  /-- The files after the act. -/
  tree : Files.Tree
  /-- The sink after the act, or why the act failed. -/
  next : Except Failure Sink

/-- What becomes of a write whose refusal is a failure of a given sort. -/
def Sink.effect (sink : Sink) (tree : Files.Tree) (sort : DeviceError → Failure) (text : Text) :
    Effect :=
  ⟨(sink.accept text).1, [], tree, (sink.accept text).2.mapError sort⟩

/-- What becomes of an act. -/
def Act.effect (sink : Sink) (tree : Files.Tree) : Act → Effect
  | write text => sink.effect tree .device text
  | writeJson text => sink.effect tree .json text
  | report message => ⟨[], [.report message], tree, .ok sink⟩
  | log entry => ⟨[], [.log entry], tree, .ok sink⟩
  | save path content =>
    match tree.save path (String.ofList content).toUTF8 with
    | (tree, none) => ⟨[], [], tree, .ok sink⟩
    | (tree, some cause) => ⟨[], [], tree, .error (.device cause)⟩

namespace Script

variable {α : Type}

/-- The performance of acts with a given outcome at the end. -/
def performActs (outcome : Except Failure α) (sink : Sink) (tree : Files.Tree) :
    List Act → Performance α
  | [] => ⟨[], [], tree, outcome⟩
  | act :: acts =>
    let effect := act.effect sink tree
    match effect.next with
    | .error cause => ⟨effect.accepted, effect.notices, effect.tree, .error cause⟩
    | .ok sink =>
      let rest := performActs outcome sink effect.tree acts
      { rest with
        accepted := effect.accepted ++ rest.accepted
        notices := effect.notices ++ rest.notices }
termination_by structural acts => acts

/-- The performance of a script. -/
def perform (s : Script α) (sink : Sink) (tree : Files.Tree) : Performance α :=
  performActs s.outcome sink tree s.acts

end Script

end Lexicon
