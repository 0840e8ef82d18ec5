import Lexicon.Text.Quoted

/-!
# Failures

A system error is a refusal by the operating system, which has a number, a name
for its kind and a message.  A device error is a system error, text that is not
valid UTF-8, a path that no file can have, or an error of some other source with
a message of its own.

A failure ends a command.  It is either a message in one of four categories, or
a device error, which is told apart by whether it was met while a JSON value was
being written.  Every failure has a message for users and a detailed form that
names its parts.
-/

namespace Lexicon

/-! ## Errors of the system -/

/-- Why the operating system refuses a request. -/
inductive SystemError where
  /-- There is nothing of this name. -/
  | noEntry
  /-- There is something of this name already. -/
  | alreadyExists
  /-- A directory was needed. -/
  | notDirectory
  /-- No directory was wanted. -/
  | isDirectory
  /-- The device is full. -/
  | noSpace
  /-- A path, or a name in it, is too long. -/
  | nameTooLong
deriving DecidableEq, Repr

namespace SystemError

/-- The number of the error. -/
def number : SystemError → Nat
  | noEntry => 2
  | alreadyExists => 17
  | notDirectory => 20
  | isDirectory => 21
  | noSpace => 28
  | nameTooLong => 36

/-- The name of the kind of error. -/
def kind : SystemError → String
  | noEntry => "NotFound"
  | alreadyExists => "AlreadyExists"
  | notDirectory => "NotADirectory"
  | isDirectory => "IsADirectory"
  | noSpace => "StorageFull"
  | nameTooLong => "InvalidFilename"

/-- The message of the operating system. -/
def message : SystemError → String
  | noEntry => "No such file or directory"
  | alreadyExists => "File exists"
  | notDirectory => "Not a directory"
  | isDirectory => "Is a directory"
  | noSpace => "No space left on device"
  | nameTooLong => "File name too long"

end SystemError

/-- The quoted form of a string. -/
def quote (s : String) : String := String.ofList (Text.quoted s.toList)

/-- Why reading from or writing to a device fails. -/
inductive DeviceError where
  /-- The operating system refuses. -/
  | system (cause : SystemError)
  /-- The bytes are not the UTF-8 form of a text. -/
  | invalidUtf8
  /-- A path has a null character, which no name may have. -/
  | nullInName
  /-- Another reason, with the name of its kind. -/
  | other (kind message : String)
deriving DecidableEq, Repr

namespace DeviceError

/-- What a user is told. -/
def message : DeviceError → String
  | system cause => cause.message ++ " (os error " ++ toString cause.number ++ ")"
  | invalidUtf8 => "stream did not contain valid UTF-8"
  | nullInName => "file name contained an unexpected NUL byte"
  | other _ message => message

/-- A name with its fields between braces. -/
def detailed (name : String) (fields : List (String × String)) : String :=
  let written := fields.map fun field => field.1 ++ ": " ++ field.2
  name ++ " \x7b " ++ ", ".intercalate written ++ " \x7d"

/-- The detailed form. -/
def details : DeviceError → String
  | system cause =>
    detailed "Os" [("code", toString cause.number), ("kind", cause.kind),
      ("message", quote cause.message)]
  | invalidUtf8 =>
    detailed "Error" [("kind", "InvalidData"), ("message", quote invalidUtf8.message)]
  | nullInName =>
    detailed "Error" [("kind", "InvalidInput"), ("message", quote nullInName.message)]
  | other kind message => detailed "Custom" [("kind", kind), ("error", quote message)]

end DeviceError

/-! ## Failures of commands -/

/-- Why a command fails. -/
inductive Failure where
  /-- The settings cannot be used. -/
  | settings (reason : String)
  /-- A source cannot be read. -/
  | file (reason : String)
  /-- A request is not acceptable. -/
  | argument (reason : String)
  /-- Sources are at fault. -/
  | lexing (reason : String)
  /-- A device fails. -/
  | device (cause : DeviceError)
  /-- A device fails while a JSON value is written to it. -/
  | json (cause : DeviceError)
deriving DecidableEq, Repr

namespace Failure

/-- What a user is told. -/
def message : Failure → String
  | settings reason => "Configuration error: " ++ reason
  | file reason => "File operation failed: " ++ reason
  | argument reason => "Validation error: " ++ reason
  | lexing reason => "Lexing failed: " ++ reason
  | device cause => "IO error: " ++ cause.message
  | json cause => "JSON error: " ++ cause.message

/-- The detailed form. -/
def details : Failure → String
  | settings reason => "Config(" ++ quote reason ++ ")"
  | file reason => "FileOperation(" ++ quote reason ++ ")"
  | argument reason => "Validation(" ++ quote reason ++ ")"
  | lexing reason => "Lex(" ++ quote reason ++ ")"
  | device cause => "Io(" ++ cause.details ++ ")"
  | json cause => "Json(Error(" ++ quote cause.message ++ ", line: 0, column: 0))"

/-- The message of the error behind a failure, where there is one. -/
def source? : Failure → Option String
  | device cause | json cause => some cause.message
  | settings _ | file _ | argument _ | lexing _ => none

/-! ## The reasons -/

/-- No format has this name. -/
def unknownFormat (name : String) : Failure := argument ("Unknown format: " ++ name)

/-- A source cannot be read. -/
def unreadable (path : String) (cause : DeviceError) : Failure :=
  file ("Cannot read " ++ path ++ ": " ++ cause.message)

/-- There are settings already. -/
def settingsPresent (path : String) : Failure :=
  argument ("Configuration file already exists: " ++ path)

/-- There are no settings. -/
def settingsMissing (path : String) : Failure :=
  settings ("Configuration file not found: " ++ path)

/-- The settings do not follow their grammar. -/
def settingsMalformed : Failure := settings "Failed to parse configuration"

/-- So many sources are at fault. -/
def sourcesFailed (count : Nat) : Failure :=
  lexing (toString count ++ " file(s) could not be read or lexed")

end Failure

end Lexicon
