/-
This file tells people and programs how a session ended. People get one line for
each thing that is known, programs get the outcome as a value and an exit code
that tells a closed gate from a failure. What a session did not get to is left out
of the lines and absent from the value.
-/

import MigrationGuard.Session.State

namespace MigrationGuard

open Data

namespace Session

/-- The exit code of a session: two where the gate blocked it, one where it failed. -/
def exitCode (session : Session) : Nat :=
  match session.progress with
  | .riskBlocked => 2
  | .failed _ => 1
  | _ => if session.error.isSome then 1 else 0

/-! ### Lines -/

/-- A percentage with one place and its sign, as people read it. -/
def percentText (value : Float) : String :=
  Decimal.fixedText 1 value ++ "%"

/-- The line of a run with its counts, behind a label for its side. -/
def testRunLine (label : String) (run : TestRun) : String :=
  label ++ ": total=" ++ toString run.total ++ " passed=" ++ toString run.passed ++ " failed=" ++
    toString run.failed

/-- The line of a workflow with the sizes of its parts. -/
def graphLine (graph : WorkflowGraph) : String :=
  "workflow: nodes=" ++ toString graph.nodes.length ++ " edges=" ++ toString graph.edges.length ++
    " entrypoints=" ++ toString graph.entrypoints.length ++ " side_effect_paths=" ++
    toString graph.sideEffectPaths.length

/-- The line of dead code with the numbers of its kinds. -/
def deadCodeLine (report : DeadCodeReport) : String :=
  "dead_code: total=" ++ toString report.total ++ " zero_callers=" ++
    toString report.zeroCallerCount ++ " unreachable=" ++ toString report.unreachableCount ++
    " commented_blocks=" ++ toString report.commentedBlockCount

/-- The line of a suite with its size and its declared coverage. -/
def suiteLine (suite : TestSuite) : String :=
  "suite: tests=" ++ toString suite.tests.length ++ " coverage=" ++ percentText suite.coveragePct

/-- The line of a risk with the score, its label and the number of warnings. -/
def riskLine (risk : RiskAssessment Float) : String :=
  "risk: score=" ++ Decimal.fixedText 4 risk.score ++ " level=" ++ Named.name risk.level ++
    " warnings=" ++ toString risk.warnings.length

/-- The line of a verdict with the numbers that it rests on. -/
def verdictLine (report : ConfidenceReport Float) : String :=
  "verdict=" ++ Named.name report.verdict ++ " preservation=" ++
    percentText report.preservationPct ++ " critical=" ++ toString report.criticalDrifts ++
    " non_critical=" ++ toString report.nonCriticalDrifts ++ " coverage=" ++
    percentText report.coveragePct

/-- The lines of a report: the verdict, and the tests that only one side knows if there are any. -/
def reportLines (report : ConfidenceReport Float) : List String :=
  verdictLine report :: if report.missingTests.isEmpty then []
    else ["missing_tests=" ++ Text.joined ", " report.missingTests]

/-- The summary of a session, one line for each thing that is known. -/
def summary (session : Session) : List String :=
  ["session=" ++ session.id ++ " stage=" ++ session.progress.label] ++
  (session.graph.map graphLine).toList ++
  (if session.changedFunctions.isEmpty then []
    else ["changed_functions=" ++ toString session.changedFunctions.length]) ++
  (session.deadCode.map deadCodeLine).toList ++
  (session.suite.map suiteLine).toList ++
  (session.baselineRun.map (testRunLine "baseline")).toList ++
  (session.assessment.map riskLine).toList ++
  (session.migratedRun.map (testRunLine "migrated")).toList ++
  (session.report.map reportLines).getD [] ++
  (session.error.map fun reason => "error: " ++ reason).toList

/-! ### Outcome -/

/-- The outcome of a session that was saved at a path. -/
def outcome (session : Session) (path : String) : Value :=
  .record [("session_id", toValue session.id), ("current_stage", toValue session.progress),
    ("state_path", toValue path), ("risk_assessment", toValue session.assessment),
    ("confidence_report", toValue session.report), ("error", toValue session.error)]

end Session

end MigrationGuard
