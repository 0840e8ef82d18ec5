import Lexicon.Files.Path

/-!
# The command line

A command line consists of options of the program, the name of a task, and the
options and operands of the task.  The options of the program may also stand
after the name of the task.

An option has a long name after two dashes or a letter after one.  Letters may
be written together.  The value of an option follows its long name after an
equals sign, its letter directly or after an equals sign, or it is the next
argument, which then must not look like an option.  An option may be given once
before and once after the name of the task, and the value after it counts.  Two
dashes end the options.

Arguments are judged in their order, and the first request for the version or
for help, or the first broken rule, decides.  Only a value that is an argument of
its own is judged later: with the next option or operand of its level, or at the
end of the level.  So the last one before the name of a task is judged after all
that follows the name.

Three options of the program may also be set by variables of the environment.  A
variable counts where the command line does not say otherwise, and a switch must
be set to true or to false.  The variables are looked at on each of the two
levels unless the option is given there, so one that cannot be used is passed
over only when the option is given on both.

What does not follow these rules is misuse.
-/

namespace Lexicon

namespace Arguments

/-! ## What a command line may ask for -/

/-- What the program is asked to do. -/
inductive Request where
  /-- List the tokens of a source. -/
  | tokens (file? : Option Path) (format? : Option Text) (spans : Bool)
  /-- Audit sources. -/
  | check (files : List Path) (failFast : Bool)
  /-- Save default settings. -/
  | init (directory? : Option Path) (force : Bool)
deriving DecidableEq, Repr

/-- The options of the program. -/
structure General where
  /-- Whether the log has every entry. -/
  verbose : Bool
  /-- Whether the log is without colours. -/
  noColor : Bool
  /-- The settings to be used. -/
  settings? : Option Path
deriving DecidableEq, Repr

/-- What a command line means. -/
inductive Meaning where
  /-- To do something. -/
  | perform (general : General) (request : Request)
  /-- To tell the version of the program or of one of its tasks. -/
  | version (name : Text)
  /-- To tell how the program is used. -/
  | help
  /-- Nothing. -/
  | misuse
deriving DecidableEq, Repr

/-- The variables of the environment that set options. -/
structure Variables where
  /-- The switch for the whole log. -/
  verbose : Option Text := none
  /-- The switch against colours. -/
  noColor : Option Text := none
  /-- The path of the settings. -/
  settings : Option Text := none
deriving DecidableEq, Repr

/-! ## Options -/

/-- The options. -/
inductive Opt where
  /-- The whole log. -/
  | verbose
  /-- The settings to be used. -/
  | settings
  /-- No colours. -/
  | noColor
  /-- The use of the program. -/
  | help
  /-- The version of the program. -/
  | version
  /-- The format of a listing. -/
  | format
  /-- Spans in a listing. -/
  | spans
  /-- An audit that stops early. -/
  | failFast
  /-- The directory for settings. -/
  | path
  /-- Replacing settings. -/
  | force
deriving DecidableEq, Repr

namespace Opt

/-- The long name. -/
def long : Opt → String
  | verbose => "verbose"
  | settings => "config"
  | noColor => "no-color"
  | help => "help"
  | version => "version"
  | format => "format"
  | spans => "spans"
  | failFast => "fail-fast"
  | path => "path"
  | force => "force"

/-- The letter, if there is one. -/
def letter? : Opt → Option Char
  | verbose => some 'v'
  | settings => some 'c'
  | noColor => none
  | help => some 'h'
  | version => some 'V'
  | format => some 'F'
  | spans => some 's'
  | failFast => none
  | path => some 'p'
  | force => some 'f'

/-- Whether the option has a value. -/
def hasValue : Opt → Bool
  | settings | format | path => true
  | verbose | noColor | help | version | spans | failFast | force => false

/-- Whether a value of the option may be empty.  A path may not. -/
def allowsEmpty : Opt → Bool
  | format => true
  | _ => false

end Opt

/-- The tasks. -/
inductive TaskName where
  /-- Listing. -/
  | tokens
  /-- Auditing. -/
  | check
  /-- Saving settings. -/
  | init
deriving DecidableEq, Repr

namespace TaskName

/-- All tasks in order. -/
def all : List TaskName := [tokens, check, init]

/-- The name on the command line. -/
def label : TaskName → String
  | tokens => "tokens"
  | check => "check"
  | init => "init"

/-- The task of a name. -/
def ofText? (t : Text) : Option TaskName := all.find? (·.label.toList == t)

end TaskName

/-- The place of an argument: before the name of a task, or after it. -/
inductive Level where
  /-- Before. -/
  | program
  /-- After the name of this task. -/
  | task (name : TaskName)
deriving DecidableEq, Repr

/-- The options that may be given on both levels. -/
def common : List Opt := [.verbose, .settings, .noColor, .help, .version]

/-- The options of a level. -/
def Level.options : Level → List Opt
  | program => common
  | task .tokens => common ++ [.format, .spans]
  | task .check => common ++ [.failFast]
  | task .init => common ++ [.path, .force]

/-- How many operands a level takes, when there is a limit. -/
def Level.operands? : Level → Option Nat
  | program => some 0
  | task .tokens => some 1
  | task .check => none
  | task .init => some 0

/-- The name of a level in the version. -/
def Level.title : Level → Text
  | program => "larkt".toList
  | task name => "larkt-".toList ++ name.label.toList

/-! ## Reading one level -/

/-- What has been given on a level so far. -/
structure Given where
  /-- The options, with their values. -/
  options : List (Opt × Text) := []
  /-- The option whose value has been an argument of its own and is not judged
  yet. -/
  pending? : Option (Opt × Text) := none
  /-- The operands in order. -/
  operands : List Path := []
deriving DecidableEq, Repr

namespace Given

/-- Whether an option is given. -/
def has (g : Given) (o : Opt) : Bool := (g.options.lookup o).isSome

/-- The value of an option. -/
def value? (g : Given) (o : Opt) : Option Text := g.options.lookup o

end Given

/-- Why reading stops before the end. -/
inductive Stop where
  /-- The version is asked for. -/
  | version
  /-- The use is asked for. -/
  | help
  /-- A rule is broken. -/
  | misuse
deriving DecidableEq, Repr

namespace Given

/-- What has been given, with an option that is judged at once. -/
def judge (g : Given) (o : Opt) (value : Text) : Except Stop Given :=
  match o with
  | .help => .error .help
  | .version => .error .version
  | _ =>
    if g.has o || (o.hasValue && value.isEmpty && !o.allowsEmpty) then .error .misuse
    else .ok { g with options := g.options ++ [(o, value)] }

/-- What has been given, with nothing left to be judged. -/
def settle (g : Given) : Except Stop Given :=
  match g.pending? with
  | none => .ok g
  | some (o, value) => { g with pending? := none }.judge o value

/-- What has been given, with one more option. -/
def add (g : Given) (o : Opt) (value : Text) : Except Stop Given := do
  (← g.settle).judge o value

/-- What has been given, with one more option whose value is an argument of its
own. -/
def hold (g : Given) (o : Opt) (value : Text) : Except Stop Given := do
  return { ← g.settle with pending? := some (o, value) }

/-- What has been given, with one more operand. -/
def addOperand (level : Level) (g : Given) (operand : Text) : Except Stop Given := do
  let g ← g.settle
  let fits := level.operands?.all (g.operands.length < ·)
  if fits && !operand.isEmpty then return { g with operands := g.operands ++ [operand] }
  else throw .misuse

end Given

/-- What reading one argument leads to. -/
inductive Progress where
  /-- More has been given. -/
  | given (g : Given)
  /-- The next argument is the value of an option. -/
  | awaiting (g : Given) (o : Opt)

/-- Reads the letters of an argument with one dash. -/
def readLetters (level : Level) : Given → Text → Except Stop Progress
  | g, [] => .ok (.given g)
  | g, c :: rest =>
    match level.options.find? (·.letter? == some c) with
    | none => .error .misuse
    | some o =>
      if o.hasValue then
        match rest with
        | [] => .ok (.awaiting g o)
        | '=' :: value => (g.add o value).map .given
        | value => (g.add o value).map .given
      else do
        let g ← g.add o []
        readLetters level g rest
termination_by structural _ letters => letters

/-- Reads an argument with two dashes. -/
def readLong (level : Level) (g : Given) (argument : Text) : Except Stop Progress :=
  let name := argument.takeWhile (· != '=')
  match level.options.find? (·.long.toList == name) with
  | none => .error .misuse
  | some o =>
    match argument.dropWhile (· != '='), o.hasValue with
    | _ :: value, true => (g.add o value).map .given
    | _ :: _, false => .error .misuse
    | [], true => .ok (.awaiting g o)
    | [], false => (g.add o []).map .given

/-- Whether an argument looks like an option.  A single dash does not. -/
def looksLikeOption : Text → Bool
  | '-' :: _ :: _ => true
  | _ => false

/-- How a level ends: with its last argument, or with the name of a task, or
with a request for help on tasks, and the arguments after it. -/
inductive Ending where
  /-- All arguments have been read. -/
  | done
  /-- A task is named. -/
  | task (name : TaskName) (rest : List Text)
  /-- Help is asked for. -/
  | help (rest : List Text)

/-- Reads the arguments of a level.  After two dashes all of them are operands. -/
def readLevel (level : Level) (onlyOperands : Bool) (g : Given) :
    List Text → Except Stop (Given × Ending)
  | [] => .ok (g, .done)
  | argument :: rest =>
    if onlyOperands then do
      let g ← g.addOperand level argument
      readLevel level true g rest
    else if argument = ['-', '-'] then readLevel level true g rest
    else if looksLikeOption argument then do
      let progress ← match argument.drop 1 with
        | '-' :: name => readLong level g name
        | letters => readLetters level g letters
      match progress with
      | .given g => readLevel level false g rest
      | .awaiting g o =>
        match rest with
        | [] => .error .misuse
        | value :: rest =>
          if looksLikeOption value then .error .misuse
          else do
            let g ← g.hold o value
            readLevel level false g rest
    else
      match level with
      | .program =>
        match TaskName.ofText? argument with
        | some name => .ok (g, .task name rest)
        | none => if argument = "help".toList then .ok (g, .help rest) else .error .misuse
      | .task _ => do
        let g ← g.addOperand level argument
        readLevel level false g rest
termination_by structural arguments => arguments

/-! ## Variables -/

/-- The value of a switch. -/
def switch? (value : Text) : Option Bool :=
  if value = "true".toList then some true
  else if value = "false".toList then some false
  else none

/-- Whether the variables can be used on a level on which options are given. -/
def Variables.areUsable (v : Variables) (g : Given) : Bool :=
  (g.has .verbose || v.verbose.all fun value => (switch? value).isSome) &&
  (g.has .noColor || v.noColor.all fun value => (switch? value).isSome) &&
  (g.has .settings || v.settings.all fun value => !value.isEmpty)

/-- The options of the program, from both levels and the variables. -/
def general (v : Variables) (before after : Given) : General where
  verbose := before.has .verbose || after.has .verbose || v.verbose.bind switch? == some true
  noColor := before.has .noColor || after.has .noColor || v.noColor.bind switch? == some true
  settings? := ((after.value? .settings).or (before.value? .settings)).or v.settings

/-! ## Reading a command line -/

/-- The request for a task with what is given for it. -/
def request? (name : TaskName) (g : Given) : Option Request :=
  match name with
  | .tokens => some (.tokens g.operands.head? (g.value? .format) (g.has .spans))
  | .check => if g.operands.isEmpty then none else some (.check g.operands (g.has .failFast))
  | .init => some (.init (g.value? .path) (g.has .force))

/-- What it means to stop on a level. -/
def Stop.meaning (level : Level) : Stop → Meaning
  | version => .version level.title
  | help => .help
  | misuse => .misuse

/-- What is meant by asking for help on tasks. -/
def helpMeaning : List Text → Meaning
  | [] => .help
  | [name] =>
    if (TaskName.ofText? name).isSome || name = "help".toList then .help else .misuse
  | _ => .misuse

/-- What it means to name a task, when this has been given before its name and
these arguments are after it. -/
def taskMeaning (v : Variables) (before : Given) (name : TaskName) (arguments : List Text) :
    Meaning :=
  let read : Except Stop (Given × Option Request) := do
    let (after, _) ← readLevel (.task name) false {} arguments
    let after ← after.settle
    return (after, request? name after)
  match read with
  | .error stop => stop.meaning (.task name)
  | .ok (_, none) => .misuse
  | .ok (after, some request) =>
    match before.settle with
    | .error stop => stop.meaning .program
    | .ok before =>
      if v.areUsable before && v.areUsable after then
        .perform (general v before after) request
      else .misuse

/-- What a command line means, given the variables of the environment. -/
def meaning (v : Variables) (arguments : List Text) : Meaning :=
  match readLevel .program false {} arguments with
  | .error stop => stop.meaning .program
  | .ok (_, .done) => .misuse
  | .ok (_, .help rest) => helpMeaning rest
  | .ok (before, .task name rest) => taskMeaning v before name rest

end Arguments

end Lexicon
