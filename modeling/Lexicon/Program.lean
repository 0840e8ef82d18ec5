import Lexicon.Arguments
import Lexicon.Task.Audit
import Lexicon.Task.Setup

/-!
# The program

The program reads its command line, then the settings, and performs one task.
The options of the command line come before the settings, except that a switch
which is set in either is set.  A failure is told to the user in its detailed
form, and the status is then one.  Misuse of the command line has the status
two.

Entries of the log are shown from the level of information on, and with the
switch for the whole log from the level below.  The entries of the lowest level
are never shown.
-/

namespace Lexicon.Program

open Arguments (General Meaning Request Variables)

/-! ## Requests -/

/-- The log entry at the start of a task. -/
def running (name : Arguments.TaskName) : Act :=
  .log ⟨.debug, "running", [("command", quote name.label)]⟩

/-- The settings for a run. -/
def settings (s : Surroundings) (general : General) : Except Failure Settings :=
  match general.settings? with
  | some path => Task.load s path
  | none => Task.discover s

/-- The format asked for, or else the one in the settings. -/
def chosenFormat (settings : Settings) : Option Text → Except Failure Listing.Format
  | none => .ok settings.format
  | some name =>
    match Listing.Format.ofName? name with
    | some format => .ok format
    | none => .error (.unknownFormat (String.ofList name))

/-- The script for a request under given settings. -/
def requestScript (s : Surroundings) (settings : Settings) : Request → Script Unit
  | .tokens file? format? spans =>
    match chosenFormat settings format? with
    | .error cause => Script.failing cause
    | .ok format =>
      let source := (s.readSource file?).1
      ((Task.listing format (spans || settings.showSpans) source).map fun _ => ()).after
        [running .tokens]
  | .check files failFast =>
    ((Task.audit (failFast || settings.failFast) (s.readSources files)).map fun _ => ()).after
      [running .check]
  | .init directory? force =>
    ((Task.setup s directory? force).map fun _ => ()).after [running .init]

/-- The script for a request. -/
def script (s : Surroundings) (general : General) (request : Request) : Script Unit :=
  match settings s general with
  | .error cause => Script.failing cause
  | .ok settings => requestScript s settings request

/-- The paths at which a request may look. -/
def pathsOf (s : Surroundings) (general : General) (request : Request) : List Path :=
  let settings := match general.settings? with
    | some path => [path]
    | none => Task.settingsPaths s
  let sources := match request with
    | .tokens file? _ _ => file?.toList
    | .check files _ => files
    | .init directory? _ => [Task.settingsIn directory?]
  settings ++ sources

/-! ## Runs -/

/-- The version of the program. -/
def versionNumber : String := "0.1.0"

/-- How the program is used. -/
def usage : String :=
  "Usage: larkt [OPTIONS] <COMMAND>\n\nCommands:\n" ++
  "  tokens [-F <FORMAT>] [-s] [FILE]\n  check [--fail-fast] <FILES>...\n" ++
  "  init [-p <PATH>] [-f]\n\nOptions:\n" ++
  "  -v, --verbose\n  -c, --config <CONFIG>\n      --no-color\n" ++
  "  -h, --help\n  -V, --version\n"

/-- Whether a notice is shown. -/
def shows (general : General) : Notice → Bool
  | .report _ => true
  | .log entry => entry.reaches (if general.verbose then .debug else .info)

/-- The last words of a run that failed. -/
def lastWords (cause : Failure) : Notice := .report ("Error: " ++ cause.details)

/-- What has become of a run. -/
structure Run where
  /-- The status for whoever started the program. -/
  status : Nat
  /-- The bytes that the standard output has taken. -/
  output : List UInt8
  /-- What the user has been shown besides, in order. -/
  notices : List Notice
  /-- Whether the log was shown in colours. -/
  colored : Bool
  /-- The files at the end. -/
  tree : Files.Tree

/-- The run of a request. -/
def runRequest (s : Surroundings) (tree : Files.Tree) (sink : Sink) (general : General)
    (request : Request) : Run :=
  let performance := (script s general request).perform sink tree
  let notices := performance.notices.filter (shows general)
  match performance.outcome with
  | .ok () => ⟨0, performance.accepted, notices, !general.noColor, performance.tree⟩
  | .error cause =>
    ⟨1, performance.accepted, notices ++ [lastWords cause], !general.noColor, performance.tree⟩

/-- The run of a command line.  Whether the sink takes the version or the usage
does not change the status. -/
def run (v : Variables) (s : Surroundings) (tree : Files.Tree) (sink : Sink)
    (arguments : List Text) : Run :=
  match Arguments.meaning v arguments with
  | .perform general request => runRequest s tree sink general request
  | .version name =>
    ⟨0, (sink.accept (name ++ (" " ++ versionNumber ++ "\n").toList)).1, [], false, tree⟩
  | .help => ⟨0, (sink.accept usage.toList).1, [], false, tree⟩
  | .misuse => ⟨2, [], [.report usage], false, tree⟩

end Lexicon.Program
