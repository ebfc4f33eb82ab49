/-
This file compares two runs of a suite, one before and one after a migration.
Results are joined by the name of their test, the first result of a name standing
for it, so that a repeated test is compared once. A test that passed before and
fails now is a critical drift; one that passes on both sides with another output
is a drift that is not critical. A test that failed before cannot drift, whatever
it does now. The share of joined tests that pass now is the percentage of
preserved behaviour, and tests that only one of the runs knows are listed apart,
as they say nothing about a change.
-/

import MigrationGuard.Behavior.TestRun
import MigrationGuard.Behavior.Verdict

namespace MigrationGuard

open Data

/-! ### Drifts -/

/-- How bad a drift is. Only the critical ones count against the verdict on a migration. -/
inductive DriftSeverity where
  /-- A test fails that passed before. -/
  | critical
  /-- The output of a test changed, but it still passes. -/
  | nonCritical
  deriving DecidableEq, Repr

namespace DriftSeverity

instance : Named DriftSeverity where
  noun := "drift severity"
  all := [.critical, .nonCritical]
  name
    | .critical => "critical"
    | .nonCritical => "non_critical"

/-- A further spelling that is read but never written. -/
def spellings : List (String × DriftSeverity) :=
  [("non-critical", .nonCritical)]

/-- The severity that a text names, with blanks around it. A text that names none is an error, which
tells the words that would do. -/
def read (text : String) : Except UnknownWord DriftSeverity :=
  Named.read spellings (Text.trimmed text)

instance : OfValue DriftSeverity := ⟨ofWord? (Named.table ++ spellings)⟩

end DriftSeverity

/-- A test whose behaviour changed, with enough of both outputs to see what became different. -/
structure DriftItem where
  testId : String
  severity : DriftSeverity
  description : String
  /-- The beginning of the output before the migration. -/
  beforeOutput : String
  /-- The beginning of the output after it. -/
  afterOutput : String
  deriving DecidableEq, Repr

instance : ToValue DriftItem where
  toValue drift := .record [("test_id", toValue drift.testId), ("severity", toValue drift.severity),
    ("description", toValue drift.description), ("before_output", toValue drift.beforeOutput),
    ("after_output", toValue drift.afterOutput)]

instance : OfValue DriftItem where
  ofValue? value := do
    match ← value.slots?
      ["test_id", "severity", "description", "before_output", "after_output"] with
    | [testId, severity, description, before, after] =>
      return ⟨← testId.required, ← severity.required, ← description.required, ← before.required,
        ← after.required⟩
    | _ => none

/-! ### Validation -/

/-- The comparison of two runs. Numbers are of any type with the arithmetic that is needed, so that
results on doubles and on rationals are the same definition. -/
structure ValidationResult (α : Type) where
  migratedResults : List TestResult
  /-- The drifts in the order of the run before. -/
  drifts : List DriftItem
  criticalDriftCount : Nat
  nonCriticalDriftCount : Nat
  /-- The percentage of preserved behaviour. -/
  preservationPct : α
  /-- The tests that only the run before knows. -/
  missingFromMigrated : List String
  /-- The tests that only the run after knows. -/
  missingFromBaseline : List String
  deriving DecidableEq, Repr

instance {α : Type} [ToValue α] : ToValue (ValidationResult α) where
  toValue result := .record [("migrated_results", toValue result.migratedResults),
    ("drifts", toValue result.drifts), ("critical_drift_count", toValue result.criticalDriftCount),
    ("non_critical_drift_count", toValue result.nonCriticalDriftCount),
    ("behavior_preservation_pct", toValue result.preservationPct),
    ("missing_from_migrated", toValue result.missingFromMigrated),
    ("missing_from_baseline", toValue result.missingFromBaseline)]

instance {α : Type} [OfValue α] : OfValue (ValidationResult α) where
  ofValue? value := do
    match ← value.slots? ["migrated_results", "drifts", "critical_drift_count",
      "non_critical_drift_count", "behavior_preservation_pct", "missing_from_migrated",
      "missing_from_baseline"] with
    | [results, drifts, critical, nonCritical, percentage, fromMigrated, fromBaseline] =>
      return ⟨← results.required, ← drifts.required, ← critical.required, ← nonCritical.required,
        ← percentage.required, ← fromMigrated.withDefault [], ← fromBaseline.withDefault []⟩
    | _ => none

/-! ### Classification -/

/-- The output of a test that is kept with a drift, in characters. What lies behind is cut off. -/
def driftSnippetLength : Nat := 300

/-- The output of a failed test that is kept in its description, in characters. It is shorter than
that of a drift, as it stands inside of a sentence. -/
def failureSnippetLength : Nat := 200

/-- The first results of every test name, in order. Later results under a name that is there already
are passed over. -/
def firstResults : List TestResult → List TestResult
  | [] => []
  | result :: results =>
    result :: (firstResults results).filter fun other => other.testId != result.testId

/-- The drift of a test between two results, if there is one. A test that failed before has none, as
there was nothing to preserve. Outputs are compared without the blanks around them, and only where
something was printed before. -/
def driftBetween? (before after : TestResult) : Option DriftItem :=
  let item := fun severity description => DriftItem.mk before.testId severity description
    (Text.truncate before.output driftSnippetLength) (Text.truncate after.output driftSnippetLength)
  if before.passed && !after.passed then
    some (item .critical
      ("Test passed on legacy code but FAILED after migration. " ++
        "Migration likely changed behavior. Error: " ++
        Text.truncate after.output failureSnippetLength))
  else if before.passed && after.passed && !Text.allBlank before.output &&
      Text.trimmed before.output != Text.trimmed after.output then
    some (item .nonCritical
      ("Test passed both before and after, but output changed. " ++
        "May indicate cosmetic change or subtle logic shift."))
  else none

/-- The first results of the tests that both runs know, each with its counterpart, in the order of
the run before. -/
def joinedResults (baseline migrated : TestRun) : List (TestResult × TestResult) :=
  (firstResults baseline.results).filterMap fun before =>
    (migrated.result? before.testId).map fun after => (before, after)

/-- The tests of one run that the other does not know, each once and where it was listed first. -/
def missingTests (known other : TestRun) : List String :=
  ((firstResults known.results).filter fun result => (other.result? result.testId).isNone).map
    TestResult.testId

/-- The share of passing tests in percent, rounded to one place. Where nothing is joined, two empty
runs preserve everything and others nothing, so that a suite that fell apart is not taken for a safe
one. -/
def preservationPercentage {α : Type} [Arithmetic α] (passed total : Nat) (bothEmpty : Bool) : α :=
  if total = 0 then Arithmetic.count (if bothEmpty then 100 else 0)
  else
    Arithmetic.roundTo 1
      (Arithmetic.count passed / Arithmetic.count total * Arithmetic.count 100)

/-- Compares the runs before and after a migration: joins their results, lists the drifts in order
and counts them by severity. -/
def classifyDrift {α : Type} [Arithmetic α] (baseline migrated : TestRun) : ValidationResult α :=
  let joined := joinedResults baseline migrated
  let drifts := joined.filterMap fun pair => driftBetween? pair.1 pair.2
  let critical := drifts.countP fun drift => drift.severity == .critical
  { migratedResults := migrated.results
    drifts
    criticalDriftCount := critical
    nonCriticalDriftCount := drifts.length - critical
    preservationPct := preservationPercentage
      (joined.countP fun pair => pair.2.passed) joined.length
      (baseline.results.isEmpty && migrated.results.isEmpty)
    missingFromMigrated := missingTests baseline migrated
    missingFromBaseline := missingTests migrated baseline }

end MigrationGuard
