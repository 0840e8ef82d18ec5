import Lexicon.Program

/-!
# The executable

The outer layer of the program.  It looks at the paths that a request may
concern, lets the library work out the script, and carries out the acts one by
one until one of them fails.
-/

namespace Lexicon.Executable

/-- The error of the library for an error of the machine. -/
def deviceError : IO.Error → DeviceError
  | .noFileOrDirectory _ _ _ => .system .noEntry
  | .alreadyExists _ _ _ => .system .alreadyExists
  | .inappropriateType _ 20 _ => .system .notDirectory
  | .inappropriateType _ _ _ => .system .isDirectory
  | .resourceExhausted _ 28 _ => .system .noSpace
  | .invalidArgument _ 36 _ => .system .nameTooLong
  | e => .other "Uncategorized" (toString e)

/-- What is seen at a path. -/
def look (path : Path) : IO Sight := do
  try
    return ⟨true, .ok (← IO.FS.readBinFile (Path.toString path))⟩
  catch e =>
    let cause := deviceError e
    let isMissing := [.noEntry, .notDirectory, .nameTooLong].any (cause == .system ·)
    return ⟨!isMissing, .error cause⟩

/-- The sight for a path that has been looked at. -/
def sightIn (seen : List (Path × Sight)) (path : Path) : Sight :=
  (seen.lookup path).getD ⟨false, .error (.system .noEntry)⟩

/-- The parents of a path, the outermost first. -/
def ancestors : Nat → Path → List Path
  | 0, _ => []
  | fuel + 1, path =>
    match Path.parent? path with
    | none => []
    | some above => ancestors fuel above ++ [above]

/-- Carries out one act. -/
def carryOut (general : Arguments.General) : Act → IO (Option Failure)
  | .write text => output text .device
  | .writeJson text => output text .json
  | .report message => do
    IO.eprintln message
    return none
  | .log entry => do
    if Program.shows general (.log entry) then
      IO.eprintln (if general.noColor then entry.line else entry.coloredLine)
    return none
  | .save path content => do
    try
      for above in (ancestors path.length path).filter (!·.isEmpty) do
        IO.FS.createDirAll (Path.toString above)
      IO.FS.writeFile (Path.toString path) (String.ofList content)
      return none
    catch e => return some (.device (deviceError e))
where
  /-- Writes to the standard output. -/
  output (text : Text) (sort : DeviceError → Failure) : IO (Option Failure) := do
    try
      let stream ← IO.getStdout
      stream.putStr (String.ofList text)
      stream.flush
      return none
    catch e => return some (sort (deviceError e))

/-- Carries out a script and gives the status. -/
def carryOutAll (general : Arguments.General) (s : Script Unit) : IO UInt32 := do
  let mut failure := none
  for act in s.acts do
    if failure.isNone then failure ← carryOut general act
  let outcome := match failure, s.outcome with
    | some cause, _ => some cause
    | none, .error cause => some cause
    | none, .ok () => none
  match outcome with
  | none => return 0
  | some cause =>
    IO.eprintln ("Error: " ++ cause.details)
    return 1

/-- Runs a request on this machine. -/
def runHere (general : Arguments.General) (request : Arguments.Request) : IO UInt32 := do
  let lookUp (name : String) : IO (Option Path) := do
    return ((← IO.getEnv name).map (·.toList)).filter (!·.isEmpty)
  let blank : Surroundings :=
    ⟨sightIn [], .empty, ← lookUp "HOME", ← lookUp "XDG_CONFIG_HOME"⟩
  let mut seen := []
  let mut input := ByteArray.empty
  for path in Program.pathsOf blank general request do
    if Path.isStandardInput path then continue
    seen := (path, ← look path) :: seen
  let readsInput := match request with
    | .tokens file? _ _ => file?.all Path.isStandardInput
    | .check files _ => files.any Path.isStandardInput
    | .init _ _ => false
  if readsInput then input ← (← IO.getStdin).readBinToEnd
  let surroundings := { blank with sight := sightIn seen, input := input }
  carryOutAll general (Program.script surroundings general request)

end Lexicon.Executable

/-- Runs the program. -/
def main (arguments : List String) : IO UInt32 := do
  let lookUp (name : String) : IO (Option Lexicon.Text) := do
    return (← IO.getEnv name).map (·.toList)
  let environment : Lexicon.Arguments.Variables :=
    ⟨← lookUp "LARKT_VERBOSE", ← lookUp "LARKT_NO_COLOR", ← lookUp "LARKT_CONFIG"⟩
  match Lexicon.Arguments.meaning environment (arguments.map (·.toList)) with
  | .perform general request => Lexicon.Executable.runHere general request
  | .version name =>
    IO.println (String.ofList name ++ " " ++ Lexicon.Program.versionNumber)
    return 0
  | .help =>
    IO.print Lexicon.Program.usage
    return 0
  | .misuse =>
    IO.eprint Lexicon.Program.usage
    return 2
