/-
This file computes the risk of a migration. Four factors add up to the score:
remembered drifts, the verdicts on recent runs, the share of functions with side
effects and the code that no test covers. Each factor has a cap; an absent graph
or suite counts as the worst case. The score is rounded to four places and
compared with a threshold, which closes the gate if it is reached. The label of a
score is for readers only and follows bounds of its own. Everything is computed in
any arithmetic that can compare and round, so the formulas can be looked at in
doubles and in rationals alike.
-/

import MigrationGuard.Risk.Patch

namespace MigrationGuard

open Data

/-! ### Levels -/

/-- A label for a score. It does not decide anything, the threshold does. -/
inductive RiskLevel where
  /-- A score below 0.3. -/
  | low
  /-- A score from 0.3 on. -/
  | medium
  /-- A score from 0.5 on. -/
  | high
  /-- A score from 0.8 on. -/
  | blocked
  deriving DecidableEq, Repr

namespace RiskLevel

instance : Named RiskLevel where
  noun := "risk level"
  all := [.low, .medium, .high, .blocked]
  name
    | .low => "low"
    | .medium => "medium"
    | .high => "high"
    | .blocked => "blocked"

/-- The level that a text names in any letter case, with blanks around it. -/
def read (text : String) : Except UnknownWord RiskLevel :=
  Named.read [] (Text.lowered (Text.trimmed text))

/-- The names in capitals, which data files may use as well. -/
def capitals : List (String × RiskLevel) :=
  [("LOW", .low), ("MEDIUM", .medium), ("HIGH", .high), ("BLOCKED", .blocked)]

instance : OfValue RiskLevel := ⟨ofWord? (Named.table ++ capitals)⟩

/-- The level of a score. A score that stands in no order counts as the worst. -/
def ofScore {α : Type} [Arithmetic α] (score : α) : RiskLevel :=
  if Arithmetic.less score (Arithmetic.decimal 3 1) then .low
  else if Arithmetic.less score (Arithmetic.decimal 5 1) then .medium
  else if Arithmetic.less score (Arithmetic.decimal 8 1) then .high
  else .blocked

end RiskLevel

/-! ### Factors -/

/-- The four parts of a score, before they are added and rounded. -/
structure RiskFactors (α : Type) where
  /-- The part of remembered drifts. -/
  drift : α
  /-- The part of recent verdicts. -/
  history : α
  sideEffect : α
  /-- The part of uncovered code. -/
  coverage : α
  deriving DecidableEq, Repr

instance {α : Type} [ToValue α] : ToValue (RiskFactors α) where
  toValue factors := .record [("drift", toValue factors.drift),
    ("history", toValue factors.history),
    ("side_effect", toValue factors.sideEffect), ("coverage", toValue factors.coverage)]

instance {α : Type} [OfValue α] : OfValue (RiskFactors α) where
  ofValue? value := do
    match ← value.slots? ["drift", "history", "side_effect", "coverage"] with
    | [drift, history, sideEffect, coverage] =>
      return ⟨← drift.required, ← history.required, ← sideEffect.required, ← coverage.required⟩
    | _ => none

/-- What a score is computed from: what memory tells, the workflow and the suite. -/
structure RiskInputs (α : Type) where
  /-- The warnings about the change. -/
  warnings : List RiskWarning
  /-- The verdicts on past runs, the newest first. -/
  history : List (Option Verdict)
  /-- How many past runs count. -/
  historyWindow : Nat
  /-- How many drifts are remembered. -/
  knownDriftCount : Nat
  /-- The workflow, if it is known. -/
  graph : Option WorkflowGraph
  /-- The declared coverage of the suite in percent, if there is a suite. -/
  coveragePct : Option α

namespace WorkflowGraph

/-- The share of functions with side effects. A graph without nodes has none. -/
def effectDensity? {α : Type} [Arithmetic α] (graph : WorkflowGraph) : Option α :=
  if graph.nodes.isEmpty then none
  else some (Arithmetic.count graph.effectNodeCount / Arithmetic.count graph.nodes.length)

end WorkflowGraph

/-- The share of covered code that a percentage declares, moved into the unit interval. -/
def coverageFraction {α : Type} [Arithmetic α] (percentage : α) : α :=
  Arithmetic.clamp (Arithmetic.count 0) (Arithmetic.count 1) (percentage / Arithmetic.count 100)

namespace RiskInputs

variable {α : Type} [Arithmetic α]

/-- The verdicts that count, which are those of the newest runs inside of the window. -/
def recent (inputs : RiskInputs α) : List (Option Verdict) :=
  inputs.history.take inputs.historyWindow

/-- The part of the warnings: 0.15 for a critical one and 0.05 for another, at most 0.35. -/
def driftFactor (inputs : RiskInputs α) : α :=
  let critical := inputs.warnings.countP fun warning => warning.severity == .critical
  Arithmetic.smaller
    (Arithmetic.count critical * Arithmetic.decimal 15 2 +
      Arithmetic.count (inputs.warnings.length - critical) * Arithmetic.decimal 5 2)
    (Arithmetic.decimal 35 2)

/-- The part of the verdicts: 0.10 for a blocked run and 0.05 for a risky one, at most 0.25. -/
def historyFactor (inputs : RiskInputs α) : α :=
  Arithmetic.smaller
    (Arithmetic.count (inputs.recent.count (some .blocked)) * Arithmetic.decimal 10 2 +
      Arithmetic.count (inputs.recent.count (some .risky)) * Arithmetic.decimal 5 2)
    (Arithmetic.decimal 25 2)

/-- The share of functions with side effects, everything where no graph is known. -/
def density (inputs : RiskInputs α) : α :=
  (inputs.graph.bind WorkflowGraph.effectDensity?).getD (Arithmetic.count 1)

/-- The part of the side effects: 0.4 of their share, at most 0.20. -/
def sideEffectFactor (inputs : RiskInputs α) : α :=
  Arithmetic.smaller (inputs.density * Arithmetic.decimal 4 1) (Arithmetic.decimal 20 2)

/-- The share of code that no test covers, everything where there is no suite. -/
def coverageGap (inputs : RiskInputs α) : α :=
  (inputs.coveragePct.map fun percentage => Arithmetic.count 1 - coverageFraction percentage).getD
    (Arithmetic.count 1)

/-- The part of the uncovered code: 0.2 of its share, at most 0.20. -/
def coverageFactor (inputs : RiskInputs α) : α :=
  Arithmetic.smaller (inputs.coverageGap * Arithmetic.decimal 2 1) (Arithmetic.decimal 20 2)

/-- The four parts, each with its own cap applied. -/
def factors (inputs : RiskInputs α) : RiskFactors α :=
  ⟨inputs.driftFactor, inputs.historyFactor, inputs.sideEffectFactor, inputs.coverageFactor⟩

/-- The score: the sum of the parts, at most one, rounded to four places. -/
def score (inputs : RiskInputs α) : α :=
  Arithmetic.roundTo 4
    (Arithmetic.smaller
      (inputs.driftFactor + inputs.historyFactor + inputs.sideEffectFactor + inputs.coverageFactor)
      (Arithmetic.count 1))

end RiskInputs

/-! ### Assessments -/

/-- The assessment of a migration: the score with its label, and all that it was computed from, so
that it can be explained. -/
structure RiskAssessment (α : Type) where
  score : α
  /-- Its label. -/
  level : RiskLevel
  /-- The warnings that went into it. -/
  warnings : List RiskWarning
  /-- How many drifts are remembered. -/
  knownDriftCount : Nat
  /-- How many past runs counted. -/
  pastRunCount : Nat
  worstVerdict : Option Verdict
  /-- The share of functions with side effects. -/
  density : α
  /-- The share of code that no test covers. -/
  coverageGap : α
  /-- The parts of the score. -/
  factors : RiskFactors α
  /-- When the assessment was made. -/
  computedAt : String
  deriving DecidableEq, Repr

instance {α : Type} [ToValue α] : ToValue (RiskAssessment α) where
  toValue risk := .record [("risk_score", toValue risk.score), ("risk_level", toValue risk.level),
    ("warnings", toValue risk.warnings), ("known_drift_count", toValue risk.knownDriftCount),
    ("past_run_count", toValue risk.pastRunCount),
    ("worst_historical_verdict", toValue risk.worstVerdict),
    ("side_effect_density", toValue risk.density), ("test_coverage_gap", toValue risk.coverageGap),
    ("factors", toValue risk.factors), ("computed_at", toValue risk.computedAt)]

instance {α : Type} [OfValue α] : OfValue (RiskAssessment α) where
  ofValue? value := do
    match ← value.slots? ["risk_score", "risk_level", "warnings", "known_drift_count",
      "past_run_count", "worst_historical_verdict", "side_effect_density", "test_coverage_gap",
      "factors", "computed_at"] with
    | [score, level, warnings, known, past, worst, density, gap, factors, computedAt] =>
      return ⟨← score.required, ← level.required, ← warnings.required, ← known.required,
        ← past.required, ← worst.optional, ← density.required, ← gap.required, ← factors.required,
        ← computedAt.required⟩
    | _ => none

/-- Assesses a migration at the given time. The time is noted and has no part in the score. -/
def assessRisk {α : Type} [Arithmetic α] (inputs : RiskInputs α) (computedAt : String) :
    RiskAssessment α :=
  { score := inputs.score
    level := .ofScore inputs.score
    warnings := inputs.warnings
    knownDriftCount := inputs.knownDriftCount
    pastRunCount := inputs.recent.length
    worstVerdict := Verdict.worst? inputs.recent
    density := inputs.density
    coverageGap := inputs.coverageGap
    factors := inputs.factors
    computedAt }

/-! ### The gate -/

/-- Whether a migration may go on. It is told by the score and the threshold alone. -/
inductive GateDecision where
  /-- It may. -/
  | proceed
  /-- It may not. -/
  | block
  deriving DecidableEq, Repr

instance : Named GateDecision where
  noun := "gate decision"
  all := [.proceed, .block]
  name
    | .proceed => "proceed"
    | .block => "block"

/-- The decision on a score: one that reaches the threshold blocks. -/
def gateDecision {α : Type} [Arithmetic α] (score threshold : α) : GateDecision :=
  if Arithmetic.atMost threshold score then .block else .proceed

/-- A score above the threshold is worth a notice. -/
def shouldNotify {α : Type} [Arithmetic α] (score threshold : α) : Bool :=
  Arithmetic.less threshold score

/-! ### Confidence -/

/-- The confidence that a migration preserves behaviour: the verdict and the numbers that it rests
on. -/
structure ConfidenceReport (α : Type) where
  verdict : Verdict
  /-- The percentage of preserved behaviour. -/
  preservationPct : α
  criticalDrifts : Nat
  /-- The number of other drifts. -/
  nonCriticalDrifts : Nat
  /-- The declared coverage of the suite in percent. -/
  coveragePct : α
  /-- The risk score, if the risk was assessed. -/
  riskScore : Option α
  /-- The tests that only one side knows. -/
  missingTests : List String
  deriving DecidableEq, Repr

instance {α : Type} [ToValue α] : ToValue (ConfidenceReport α) where
  toValue report := .record [("verdict", toValue report.verdict),
    ("behavior_preservation_pct", toValue report.preservationPct),
    ("critical_drifts", toValue report.criticalDrifts),
    ("non_critical_drifts", toValue report.nonCriticalDrifts),
    ("test_coverage_pct", toValue report.coveragePct), ("risk_score", toValue report.riskScore),
    ("missing_tests", toValue report.missingTests)]

instance {α : Type} [OfValue α] : OfValue (ConfidenceReport α) where
  ofValue? value := do
    match ← value.slots? ["verdict", "behavior_preservation_pct", "critical_drifts",
      "non_critical_drifts", "test_coverage_pct", "risk_score", "missing_tests"] with
    | [verdict, preservation, critical, nonCritical, coverage, risk, missingTests] =>
      return ⟨← verdict.required, ← preservation.required, ← critical.required,
        ← nonCritical.required, ← coverage.required, ← risk.optional, ← missingTests.withDefault []⟩
    | _ => none

/-- The report on a comparison of two runs. Without a suite the coverage counts as none. -/
def confidenceReport {α : Type} [Arithmetic α] (validation : ValidationResult α)
    (coveragePct : Option α) (risk : Option (RiskAssessment α)) : ConfidenceReport α :=
  { verdict := .ofPreservation validation.preservationPct validation.criticalDriftCount
    preservationPct := validation.preservationPct
    criticalDrifts := validation.criticalDriftCount
    nonCriticalDrifts := validation.nonCriticalDriftCount
    coveragePct := coveragePct.getD (Arithmetic.count 0)
    riskScore := risk.map RiskAssessment.score
    missingTests := validation.missingFromMigrated ++ validation.missingFromBaseline }

end MigrationGuard
