/-
This file reads what a test runner leaves behind: a report, else the lines of its
output that name an outcome, else one result for the whole suite that passes only
if the output speaks of no failure. A report that names no tests counts as none.
The lines of an output are read by the marks that a runner prints behind the name
of a test. They tell no times, so the time of the whole run is shared evenly among
them.
-/

import MigrationGuard.Behavior.TestRun

namespace MigrationGuard

open Data

/-! ### Reports -/

/-- The text under a name, or none at all. -/
def textUnder (value : Option Value) (name : String) : Option String :=
  (value.bind fun value => value.get? name).bind Value.toText?

/-- The result that an entry of a report tells. The reason of a failure goes before the output. -/
def resultOfEntry (entry : Value) : TestResult :=
  let call := entry.get? "call"
  let reason := (textUnder call "longrepr").getD ""
  let duration := ((call.bind fun call => call.get? "duration").bind Value.toFloat?).getD 0.0
  { testId := (textUnder entry "nodeid").getD "unknown"
    passed := textUnder entry "outcome" == some "passed"
    output := if Text.allBlank reason then (textUnder call "stdout").getD "" else reason
    durationMs := duration * 1000.0 }

/-- The results of a report, if the text is one. -/
def resultsOfReport? (text : String) : Option (List TestResult) := do
  let report ← Json.parseWhole? text
  let tests ← (← report.get? "tests").toList?
  return tests.map resultOfEntry

/-! ### Lines -/

/-- The line names an outcome, with a blank before it, wherever it stands in the line. -/
def isMarked (line : String) : Bool :=
  Text.contains line " PASSED" || Text.contains line " FAILED" || Text.contains line " ERROR"

/-- The first word of a text, or the text itself. -/
def firstWord (text : String) : String :=
  ((Text.words text.toList).head?.map String.ofList).getD text

/-- The results that the lines of an output tell. They share the time evenly. -/
def resultsOfLines (output : String) (elapsedMs : Float) : List TestResult :=
  let marked := (Text.linesOf output).filter isMarked
  let share := elapsedMs / Float.ofNat (max marked.length 1)
  marked.map fun line =>
    let trimmed := Text.trimmed line
    ⟨firstWord trimmed, Text.contains line " PASSED", trimmed, share⟩

/-! ### The whole suite -/

/-- The name of the one result that stands for a suite. -/
def wholeSuiteId : String := "suite"

/-- The output that the one result keeps, in characters. -/
def wholeSuiteOutputLength : Nat := 500

/-- The output speaks of a failure or an error, in any letter case. -/
def speaksOfFailure (output : String) : Bool :=
  let lowered := Text.lowered output
  Text.contains lowered "failed" || Text.contains lowered "error"

/-- The one result that stands for a suite whose tests cannot be told apart. -/
def wholeSuiteResult (output : String) (elapsedMs : Float) : TestResult :=
  ⟨wholeSuiteId, !speaksOfFailure output, Text.truncate output wholeSuiteOutputLength, elapsedMs⟩

/-! ### Collecting -/

/-- The results that an output tells. There is always one at least. -/
def resultsOfOutput (output : String) (elapsedMs : Float) : List TestResult :=
  let results := resultsOfLines output elapsedMs
  if results.isEmpty then [wholeSuiteResult output elapsedMs] else results

/-- The results of a run, from its report if that names tests, else from its output. -/
def collectResults (report : Option String) (output : String) (elapsedMs : Float) :
    List TestResult :=
  match report.bind resultsOfReport? with
  | some (result :: results) => result :: results
  | _ => resultsOfOutput output elapsedMs

end MigrationGuard
