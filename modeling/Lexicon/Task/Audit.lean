import Lexicon.Symbol.Naming
import Lexicon.Task.Listing

/-!
# The task of auditing

An audit goes through a list of sources and says of each whether it is in order.
A source is bad when it cannot be read or when reading its tokens gave an error.
There is one line of output for each source, and the reasons go to the user.  An
audit that fails fast stops after the first bad source.

The names of all sources are interned in one table, which is only there to be
counted.

The audit succeeds when no source is bad.
-/

namespace Lexicon.Task

/-- How many sources are good and how many are bad. -/
structure Tally where
  /-- The good ones. -/
  passed : Nat := 0
  /-- The bad ones. -/
  failed : Nat := 0
deriving DecidableEq, Repr, Inhabited

/-- The tally with one more source. -/
def Tally.count (t : Tally) (good : Bool) : Tally :=
  if good then { t with passed := t.passed + 1 } else { t with failed := t.failed + 1 }

/-- What auditing one source gives. -/
structure Verdict where
  /-- The acts in order. -/
  acts : List Act
  /-- Whether the source is good. -/
  isGood : Bool
  /-- The names of the source. -/
  names : List (Token Text)

/-- The line for a bad source. -/
def badLine (origin : String) : Act := .write (origin ++ ": FAILED\n").toList

/-- The line for a good source. -/
def goodLine (origin : String) (tokens : Nat) : Act :=
  .write (origin ++ ": ok (" ++ toString tokens ++ " tokens)\n").toList

/-- The verdict on what was found at a path. -/
def verdict (path : Path) : Except Failure Source → Verdict
  | .error cause =>
    ⟨[.report cause.message, badLine (Path.toString path)], false, []⟩
  | .ok source =>
    let run := Scan.ofText source.text
    let checked : Log.Entry :=
      ⟨.debug, "checked",
        [("origin", source.origin), ("tokens", toString run.lexemes.length)]⟩
    let isGood := !run.reports.any (·.isError)
    let line :=
      if isGood then goodLine source.origin run.lexemes.length else badLine source.origin
    ⟨scanActs run ++ .log checked :: reportActs source.origin run.reports ++ [line], isGood,
      run.tokens⟩

/-- The warning that an audit stops. -/
def stopping (path : Path) : Act :=
  .log ⟨.warn, "stopping at first failure", [("origin", Path.toString path)]⟩

/-- The log entry on the names of an audit. -/
def namesEntry (names : NameTable) : Act :=
  .log ⟨.debug, "interner",
    [("symbols", toString names.count),
      ("hit_rate", String.ofList (Log.floatNotation.write names.rate))]⟩

/-- Audits sources in order, from a tally and a table of names. -/
def auditSources (failFast : Bool) :
    NameTable → Tally → List (Path × Except Failure Source) → List Act × Tally
  | names, tally, [] => ([namesEntry names], tally)
  | names, tally, (path, source) :: sources =>
    let v := verdict path source
    let names := (names.internTokens v.names).2
    let tally := tally.count v.isGood
    if !v.isGood && failFast then (v.acts ++ [stopping path, namesEntry names], tally)
    else
      let (acts, tally) := auditSources failFast names tally sources
      (v.acts ++ acts, tally)
termination_by structural _ _ sources => sources

/-- Audits sources and gives the tally, whatever it is. -/
def survey (failFast : Bool) (sources : List (Path × Except Failure Source)) : Script Tally :=
  let (acts, tally) := auditSources failFast SymbolTable.empty {} sources
  ⟨acts, .ok tally⟩

/-- Audits sources, and fails when one of them is bad. -/
def audit (failFast : Bool) (sources : List (Path × Except Failure Source)) : Script Tally :=
  let (acts, tally) := auditSources failFast SymbolTable.empty {} sources
  let closing : Log.Entry :=
    ⟨.info, "check finished",
      [("passed", toString tally.passed), ("failed", toString tally.failed)]⟩
  ⟨acts ++ [.log closing],
    if tally.failed = 0 then .ok tally else .error (.sourcesFailed tally.failed)⟩

end Lexicon.Task
