/-
This file takes the times out of what a session finds: how long tests took and
when the risk was judged. All else that a session finds does not depend on them. A
comparison of runs, the risk and the report on a migration come out the same
whatever the clock showed. Each kind of finding has its form without times, and
each definition that makes one finding of others is shown to give the same without
times as from findings without times. So two runs of a session at different times
can be compared by leaving the times out at the end, without following them
through the stages. The hash over a run is made of names, outcomes and outputs and
has no times in it, so it needs no form of its own.
-/

import MigrationGuard.Session.Run

namespace MigrationGuard

/-! ### Findings without times -/

/-- The result without its duration, which is all that a second run may change. -/
def TestResult.untimed (result : TestResult) : TestResult :=
  { result with durationMs := 0.0 }

/-- The run without durations, with its counts and its hash as they were. -/
def TestRun.untimed (run : TestRun) : TestRun :=
  { run with results := run.results.map TestResult.untimed }

/-- The comparison without durations, which only stand in the results it keeps. -/
def ValidationResult.untimed {α : Type} (validation : ValidationResult α) : ValidationResult α :=
  { validation with migratedResults := validation.migratedResults.map TestResult.untimed }

/-- The assessment without the time at which it was made. -/
def RiskAssessment.untimed {α : Type} (assessment : RiskAssessment α) : RiskAssessment α :=
  { assessment with computedAt := "" }

/-- The session without times, whichever of its findings are there yet. -/
def Session.untimed (session : Session) : Session :=
  { session with
    baselineRun := session.baselineRun.map TestRun.untimed
    assessment := session.assessment.map RiskAssessment.untimed
    migratedRun := session.migratedRun.map TestRun.untimed
    validation := session.validation.map ValidationResult.untimed }

/-- The outcome of a runner without its duration, with all that it printed. -/
def RunnerOutcome.untimed : RunnerOutcome → RunnerOutcome
  | .finished output _ => .finished output 0.0
  | outcome => outcome

/-! ### Runs -/

theorem TestRun.untimed_ofResults (role : RunRole) (results : List TestResult) :
    (TestRun.ofResults role results).untimed =
      TestRun.ofResults role (results.map TestResult.untimed) := by
  have payload : snapshotPayload (results.map TestResult.untimed) = snapshotPayload results := by
    rw [snapshotPayload, List.map_map]
    rfl
  have passed : (results.map TestResult.untimed).countP TestResult.passed =
      results.countP TestResult.passed := by
    rw [List.countP_map]
    rfl
  rw [TestRun.ofResults, TestRun.ofResults, payload, passed, List.length_map]
  rfl

theorem untimed_resultsOfLines (output : String) (elapsedMs : Float) :
    (resultsOfLines output elapsedMs).map TestResult.untimed =
      (resultsOfLines output 0.0).map TestResult.untimed := by
  simp only [resultsOfLines, List.map_map]
  rfl

/-- How long a suite took does not tell in its results but in their durations. -/
theorem untimed_collectResults (report : Option String) (output : String) (elapsedMs : Float) :
    (collectResults report output elapsedMs).map TestResult.untimed =
      (collectResults report output 0.0).map TestResult.untimed := by
  have lines := untimed_resultsOfLines output elapsedMs
  have empty : (resultsOfLines output elapsedMs).isEmpty = (resultsOfLines output 0.0).isEmpty := by
    rw [← List.isEmpty_map, lines, List.isEmpty_map]
  unfold collectResults
  split
  · rfl
  · rw [resultsOfOutput, resultsOfOutput, empty]
    split
    · rfl
    · exact lines

/-! ### Comparisons of runs -/

theorem firstResults_map_untimed (results : List TestResult) :
    firstResults (results.map TestResult.untimed) =
      (firstResults results).map TestResult.untimed := by
  induction results with
  | nil => rfl
  | cons result results inductionHypothesis =>
    rw [List.map_cons, firstResults, firstResults, inductionHypothesis, List.map_cons,
      List.filter_map]
    rfl

theorem TestRun.result_untimed (run : TestRun) (testId : String) :
    run.untimed.result? testId = (run.result? testId).map TestResult.untimed := by
  rw [TestRun.result?, TestRun.untimed, List.find?_map]
  rfl

theorem joinedResults_untimed (baseline migrated : TestRun) :
    joinedResults baseline.untimed migrated.untimed =
      (joinedResults baseline migrated).map fun pair => (pair.1.untimed, pair.2.untimed) := by
  have results : baseline.untimed.results = baseline.results.map TestResult.untimed := rfl
  rw [joinedResults, joinedResults, results, firstResults_map_untimed, List.filterMap_map,
    List.map_filterMap]
  congr 1
  funext before
  simp only [Function.comp_apply, TestRun.result_untimed, Option.map_map]
  rfl

theorem missingTests_untimed (known other : TestRun) :
    missingTests known.untimed other.untimed = missingTests known other := by
  have results : known.untimed.results = known.results.map TestResult.untimed := rfl
  rw [missingTests, missingTests, results, firstResults_map_untimed, List.filter_map, List.map_map]
  simp only [Function.comp_def, TestRun.result_untimed, Option.isNone_map]
  rfl

/-- A comparison of runs takes nothing from durations, only from outcomes and outputs. -/
theorem classifyDrift_untimed (baseline migrated : TestRun) :
    (classifyDrift baseline.untimed migrated.untimed : ValidationResult Float) =
      (classifyDrift baseline migrated).untimed := by
  have drifts : (joinedResults baseline.untimed migrated.untimed).filterMap
      (fun pair => driftBetween? pair.1 pair.2) =
        (joinedResults baseline migrated).filterMap fun pair => driftBetween? pair.1 pair.2 := by
    rw [joinedResults_untimed, List.filterMap_map]
    rfl
  have passed : (joinedResults baseline.untimed migrated.untimed).countP
      (fun pair => pair.2.passed) =
        (joinedResults baseline migrated).countP fun pair => pair.2.passed := by
    rw [joinedResults_untimed, List.countP_map]
    rfl
  have total : (joinedResults baseline.untimed migrated.untimed).length =
      (joinedResults baseline migrated).length := by
    rw [joinedResults_untimed, List.length_map]
  have empty : (baseline.untimed.results.isEmpty && migrated.untimed.results.isEmpty) =
      (baseline.results.isEmpty && migrated.results.isEmpty) := by
    simp only [TestRun.untimed, List.isEmpty_map]
  rw [classifyDrift, drifts, passed, total, empty, missingTests_untimed, missingTests_untimed]
  rfl

/-! ### Risk and reports -/

theorem confidenceReport_untimed (validation : ValidationResult Float) (coveragePct : Option Float)
    (assessment : Option (RiskAssessment Float)) :
    confidenceReport validation.untimed coveragePct (assessment.map RiskAssessment.untimed) =
      confidenceReport validation coveragePct assessment := by
  cases assessment <;> rfl

end MigrationGuard
