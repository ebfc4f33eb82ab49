/-
This file holds the results of tests, the runs that they make up and the suites
that are generated for functions. A run carries a fingerprint of what its tests
did: the sorted list of test, output and outcome, written as one text and hashed.
Durations have no part in it, so that two runs of the same code have the same
fingerprint however long they took, and neither has the order in which the runner
told the results.
-/

import MigrationGuard.Data.Json
import MigrationGuard.Data.Word
import MigrationGuard.Hash.Sha256

namespace MigrationGuard

open Data

/-! ### Results -/

/-- The outcome of one test, as the runner told it. -/
structure TestResult where
  /-- The name under which the runner knows the test. -/
  testId : String
  passed : Bool
  output : String
  /-- How long it took, in milliseconds. -/
  durationMs : Float
  deriving DecidableEq, Repr

instance : ToValue TestResult where
  toValue result := .record [("test_id", toValue result.testId), ("passed", toValue result.passed),
    ("output", toValue result.output), ("duration_ms", toValue result.durationMs)]

instance : OfValue TestResult where
  ofValue? value := do
    match ← value.slots? ["test_id", "passed", "output", "duration_ms"] with
    | [testId, passed, output, durationMs] =>
      return ⟨← testId.required, ← passed.required, ← output.withDefault "",
        ← durationMs.withDefault 0.0⟩
    | _ => none

/-! ### Runs -/

/-- Which side of a migration a run belongs to. The comparison takes one run of each side. -/
inductive RunRole where
  /-- The code before the migration. -/
  | baseline
  /-- The code after it. -/
  | migrated
  deriving DecidableEq, Repr

instance : Named RunRole where
  noun := "run role"
  all := [.baseline, .migrated]
  name
    | .baseline => "baseline"
    | .migrated => "migrated"

instance : OfValue RunRole := ⟨ofWord? Named.table⟩

/-- One run of a suite over one workspace, with its counts and the fingerprint of its behaviour. -/
structure TestRun where
  role : RunRole
  /-- The results in the order of the runner. -/
  results : List TestResult
  total : Nat
  /-- The number of results that passed. -/
  passed : Nat
  /-- The number of results that failed. -/
  failed : Nat
  /-- The fingerprint of the observed behaviour. -/
  snapshotHash : String
  deriving DecidableEq, Repr

instance : ToValue TestRun where
  toValue run := .record [("role", toValue run.role), ("results", toValue run.results),
    ("total", toValue run.total), ("passed", toValue run.passed), ("failed", toValue run.failed),
    ("snapshot_hash", toValue run.snapshotHash)]

instance : OfValue TestRun where
  ofValue? value := do
    match ← value.slots? ["role", "results", "total", "passed", "failed", "snapshot_hash"] with
    | [role, results, total, passed, failed, snapshotHash] =>
      return ⟨← role.required, ← results.required, ← total.required, ← passed.required,
        ← failed.required, ← snapshotHash.required⟩
    | _ => none

/-- What a fingerprint is taken of: test, output and outcome. The duration is left out. -/
abbrev Observation := String × String × Bool

/-- The observation of a result, which forgets how long the test took. -/
def TestResult.observation (result : TestResult) : Observation :=
  (result.testId, result.output, result.passed)

/-- The order of observations: by test, then by output, then failures first. It is total, so the
sorted list of observations is determined by which ones there are. -/
def observationAtMost (left right : Observation) : Bool :=
  if left.1 = right.1 then
    if left.2.1 = right.2.1 then !left.2.2 || right.2.2 else Text.atMost left.2.1 right.2.1
  else Text.atMost left.1 right.1

/-- An observation as a value. Its names stand in alphabetical order, and so does what is hashed. -/
def observationValue (observation : Observation) : Value :=
  .record [("name", .text observation.1), ("output", .text observation.2.1),
    ("passed", .bool observation.2.2)]

/-- The text that the fingerprint of a list of results is taken of: the sorted observations as one
value. -/
def snapshotPayload (results : List TestResult) : String :=
  let observations := (results.map TestResult.observation).mergeSort observationAtMost
  Json.compact (.list (observations.map observationValue))

namespace TestRun

/-- The run of a list of results, with the counts and the fingerprint that belong to them. -/
def ofResults (role : RunRole) (results : List TestResult) : TestRun :=
  let passed := results.countP TestResult.passed
  ⟨role, results, results.length, passed, results.length - passed,
    Text.truncate (Hash.Sha256.hashText (snapshotPayload results)) 16⟩

/-- The first result of a test, which stands for the test when runs are compared. -/
def result? (run : TestRun) (testId : String) : Option TestResult :=
  run.results.find? fun result => result.testId == testId

end TestRun

/-! ### Suites -/

/-- A test that was generated for a function, with its code and what it was made from. -/
structure GeneratedTest where
  functionName : String
  testCode : String
  coversSideEffects : Bool
  /-- The inputs that the test was made from. -/
  snapshotInputs : List String
  deriving DecidableEq, Repr

instance : ToValue GeneratedTest where
  toValue test := .record [("function_name", toValue test.functionName),
    ("test_code", toValue test.testCode), ("covers_side_effects", toValue test.coversSideEffects),
    ("snapshot_inputs", toValue test.snapshotInputs)]

instance : OfValue GeneratedTest where
  ofValue? value := do
    match ← value.slots?
      ["function_name", "test_code", "covers_side_effects", "snapshot_inputs"] with
    | [functionName, testCode, covers, inputs] =>
      return ⟨← functionName.required, ← testCode.required, ← covers.withDefault false,
        ← inputs.withDefault []⟩
    | _ => none

/-- A suite of generated tests, with what the generator says about its coverage. -/
structure TestSuite where
  tests : List GeneratedTest
  /-- How much of the code is covered, in percent. -/
  coveragePct : Float
  /-- The functions with a test. -/
  coveredFunctions : List String
  /-- The functions without one. -/
  uncoveredFunctions : List String
  deriving DecidableEq, Repr

instance : ToValue TestSuite where
  toValue suite := .record [("tests", toValue suite.tests),
    ("coverage_pct", toValue suite.coveragePct),
    ("covered_functions", toValue suite.coveredFunctions),
    ("uncovered_functions", toValue suite.uncoveredFunctions)]

instance : OfValue TestSuite where
  ofValue? value := do
    match ← value.slots? ["tests", "coverage_pct", "covered_functions", "uncovered_functions"] with
    | [tests, coverage, covered, uncovered] =>
      return ⟨← tests.required, ← coverage.withDefault 0.0, ← covered.withDefault [],
        ← uncovered.withDefault []⟩
    | _ => none

end MigrationGuard
