/-
This file holds all that a session has found out. Every stage fills fields of its
own; a field that no stage has filled yet is empty. So a session can be looked at
wherever it stopped, saved as a text and taken up again from it. It is written
field by field, and fields that are not known to a reader are passed over. A
session may not go on once it has failed or the gate has closed.
-/

import MigrationGuard.Memory.Repository
import MigrationGuard.Risk.Assessment
import MigrationGuard.Session.Stage

namespace MigrationGuard

open Data

/-- The state of a session: what it was given, what its stages found and how far it has come. -/
structure Session where
  /-- The identity of the session. -/
  id : String
  /-- The path of the workspace before the migration. -/
  repository : String
  /-- What the names of mined modules have to contain. -/
  targetModule : Option String := none
  /-- The path of the workspace after the migration. -/
  migratedPath : Option String := none
  /-- The workflow. -/
  graph : Option WorkflowGraph := none
  /-- The functions that changed since memory last saw them. -/
  changedFunctions : List ChangedFunction := []
  deadCode : Option DeadCodeReport := none
  /-- The suite that characterizes the behaviour. -/
  suite : Option TestSuite := none
  /-- The changes of the migration. -/
  patch : Option MigrationPatch := none
  /-- The run before the migration. -/
  baselineRun : Option TestRun := none
  /-- The assessment of the risk. -/
  assessment : Option (RiskAssessment Float) := none
  migratedRun : Option TestRun := none
  /-- The comparison of the two runs. -/
  validation : Option (ValidationResult Float) := none
  /-- The report on the comparison. -/
  report : Option (ConfidenceReport Float) := none
  /-- How far the session has come. -/
  progress : Progress := .starting
  /-- Why it stopped, if it failed. -/
  error : Option String := none
  deriving DecidableEq, Repr

namespace Session

/-- The session after a stage failed: only the failure is noted. -/
def failedAt (session : Session) (stage : Stage) (reason : String) : Session :=
  { session with progress := .failed stage, error := some reason }

/-- No further stage may run, as one has failed or the gate is closed. -/
def isStopped (session : Session) : Bool :=
  session.error.isSome || session.progress == .riskBlocked

/-! ### Writing and reading -/

/-- The names of the fields in data files. -/
def fieldNames : List String :=
  ["session_id", "repo_path", "target_module", "migrated_repo_path", "workflow_graph",
    "changed_functions", "dead_code_report", "test_suite", "patch", "baseline_run",
    "risk_assessment", "migrated_run", "validation_result", "confidence_report", "current_stage",
    "error"]

instance : ToValue Session where
  toValue session := .record [("session_id", toValue session.id),
    ("repo_path", toValue session.repository), ("target_module", toValue session.targetModule),
    ("migrated_repo_path", toValue session.migratedPath),
    ("workflow_graph", toValue session.graph),
    ("changed_functions", toValue session.changedFunctions),
    ("dead_code_report", toValue session.deadCode), ("test_suite", toValue session.suite),
    ("patch", toValue session.patch), ("baseline_run", toValue session.baselineRun),
    ("risk_assessment", toValue session.assessment),
    ("migrated_run", toValue session.migratedRun),
    ("validation_result", toValue session.validation),
    ("confidence_report", toValue session.report),
    ("current_stage", toValue session.progress), ("error", toValue session.error)]

instance : OfValue Session where
  ofValue? value := do
    match ← value.slots? fieldNames with
    | [id, repository, target, migratedPath, graph, changed, deadCode, suite, patch, baselineRun,
        assessment, migratedRun, validation, report, progress, error] =>
      return {
        id := ← id.required
        repository := ← repository.required
        targetModule := ← target.withDefault none
        migratedPath := ← migratedPath.withDefault none
        graph := ← graph.withDefault none
        changedFunctions := ← changed.withDefault []
        deadCode := ← deadCode.withDefault none
        suite := ← suite.withDefault none
        patch := ← patch.withDefault none
        baselineRun := ← baselineRun.withDefault none
        assessment := ← assessment.withDefault none
        migratedRun := ← migratedRun.withDefault none
        validation := ← validation.withDefault none
        report := ← report.withDefault none
        progress := ← progress.withDefault .starting
        error := ← error.withDefault none }
    | _ => none

/-- The text in which a session is saved. -/
def toText (session : Session) : String :=
  Json.pretty (toValue session)

/-- The session that a text holds, if all of its fields can be read. -/
def ofText? (text : String) : Option Session :=
  (Json.parse? text).bind ofValue?

end Session

end MigrationGuard
