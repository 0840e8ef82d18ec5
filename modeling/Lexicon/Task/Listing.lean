import Lexicon.Listing
import Lexicon.Script
import Lexicon.Surroundings

/-!
# The task of listing

Listing reads one source and writes its tokens in one of the two formats.  The
lines of the text format are written one after the other.  The JSON array is
written as one value, and a line feed after it.  Diagnostics follow when all of
the output has been written.  A source at fault is listed all the same, up to
its invalid token, and the task succeeds.
-/

namespace Lexicon.Task

/-- The writes that list tokens. -/
def listingActs (format : Listing.Format) (spans : Bool) (lexemes : List (Lexeme Text)) : List Act :=
  match format with
  | .text => lexemes.map fun l => .write (Listing.line spans l ++ ['\n'])
  | .json =>
    [.writeJson (Json.array (lexemes.map (Listing.record spans))).indented, .write ['\n']]

/-- The log entries of a scan. -/
def scanActs (run : Scan) : List Act := run.events.map fun event => .log event.entry

/-- The reports of diagnostics. -/
def reportActs (origin : String) (reports : List Diagnostic) : List Act :=
  reports.map fun d => .report (d.render origin)

/-- Lists the tokens of a source.  The outcome is their number. -/
def listing (format : Listing.Format) (spans : Bool) : Except Failure Source → Script Nat
  | .error cause => Script.failing cause
  | .ok source =>
    let run := Scan.ofText source.text
    let opening : Log.Entry :=
      ⟨.debug, "lexing", [("origin", source.origin), ("format", format.label)]⟩
    let closing : Log.Entry :=
      ⟨.info, "done", [("origin", source.origin), ("tokens", toString run.lexemes.length)]⟩
    ⟨.log opening :: scanActs run ++ listingActs format spans run.lexemes ++
        reportActs source.origin run.reports ++ [.log closing],
      .ok run.lexemes.length⟩

end Lexicon.Task
