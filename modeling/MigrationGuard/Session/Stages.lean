/-
This file performs the stages of a session one by one. A stage reads what earlier
stages found, and either gives the session with its own findings or says why it
failed. Memory may fail without any stage failing: what it is asked for then has
the usual answer, as if nothing were remembered, and what it is told is lost. The
gate judges the risk from what memory tells, keeps a row about a session that it
blocks and sends a notice where the score is worth one. The last stage gives the
verdict and has memory keep the run and its drifts.
-/

import MigrationGuard.Session.Surroundings

namespace MigrationGuard

open Data

/-! ### Failures -/

/-- Why a stage failed. What an earlier stage should have found is looked for before anything is
done. -/
inductive StageFailure where
  /-- The workspace cannot be looked at. -/
  | ingest (failure : MiningFailure)
  /-- The workspace cannot be mined. -/
  | mine (failure : MiningFailure)
  /-- There is no workflow to look for dead code in. -/
  | noGraph
  /-- The sources cannot be listed. -/
  | listing (failure : MiningFailure)
  | noSuite
  /-- The suite cannot be run before the migration. -/
  | baseline (failure : HarnessFailure)
  /-- There is no run before the migration. -/
  | noBaseline
  /-- There is no workspace after the migration. -/
  | noMigrated
  /-- The suite cannot be run after the migration. -/
  | migrated (failure : HarnessFailure)
  /-- There is no comparison of runs. -/
  | noValidation
  deriving DecidableEq, Repr

/-- A failure of the harness with what lies behind it. -/
def HarnessFailure.fullMessage (failure : HarnessFailure) : String :=
  match failure with
  | .writeTests _ cause => failure.message ++ ": " ++ cause.message
  | .launch _ cause => failure.message ++ ": " ++ cause.message
  | _ => failure.message

/-- The failure in words, as the session notes it. -/
def StageFailure.message : StageFailure → String
  | .ingest failure => "ingest failed: " ++ failure.message
  | .mine failure => "workflow mining failed: " ++ failure.message
  | .noGraph => "dead code detection requires a workflow graph"
  | .listing failure => "failed to list source files: " ++ failure.message
  | .noSuite => "No test suite supplied; generate tests first"
  | .baseline failure => "baseline run failed: " ++ failure.fullMessage
  | .noBaseline => "No baseline run; run baseline first"
  | .noMigrated => "No migrated workspace supplied; pass --migrated"
  | .migrated failure => "migrated run failed: " ++ failure.fullMessage
  | .noValidation => "No validation result; run validation first"

variable {m : Type → Type} [Monad m]

/-! ### Before the gate -/

/-- Looks whether the workspace holds sources. Nothing of them is kept. -/
def ingestWorkspace (around : Surroundings m) (session : Session) :
    m (Except StageFailure Session) := do
  let found ← around.files.find session.repository
  return match (around.miner session.repository).sources found none with
    | .error failure => .error (.ingest failure)
    | .ok _ => .ok { session with progress := .ingested }

/-- Mines the workflow, and has memory tell which functions changed. -/
def mineWorkflow (around : Surroundings m) (session : Session) :
    m (Except StageFailure Session) := do
  let found ← around.files.find session.repository
  match (around.miner session.repository).mine found session.targetModule with
  | .error failure => return .error (.mine failure)
  | .ok outcome =>
    let changed ← around.askMemory session.changedFunctions fun memory =>
      memory.recordFunctions outcome.graph.nodes
    return .ok { session with
      graph := some outcome.graph, changedFunctions := changed, progress := .mined }

/-- Looks for dead code in the workflow and in the comments of the sources. -/
def findDeadCode (around : Surroundings m) (session : Session) :
    m (Except StageFailure Session) :=
  match session.graph with
  | none => return .error .noGraph
  | some graph => do
    let found ← around.files.find session.repository
    return match (around.miner session.repository).sources found session.targetModule with
      | .error failure => .error (.listing failure)
      | .ok files => .ok { session with
          deadCode := some (analyzeDeadCode graph files around.settings.deadCode.minCommentedRun)
          progress := .deadCodeFound }

/-- Runs the suite before the migration, in the workspace of the session. -/
def takeBaseline (around : Surroundings m) (session : Session) :
    m (Except StageFailure Session) :=
  match session.suite with
  | none => return .error .noSuite
  | some suite => do
    match ← executeSuite around.files around.runner around.settings.harness session.repository suite
      .baseline with
    | .error failure => return .error (.baseline failure)
    | .ok run => return .ok { session with baselineRun := some run, progress := .baselineTaken }

/-! ### The gate -/

/-- The changes that the risk is judged for: those of the patch, or one for every function where
the patch names none. -/
def Session.judgedChanges (session : Session) : List PatchChange :=
  match session.patch.map MigrationPatch.changes with
  | some (change :: changes) => change :: changes
  | _ => (session.graph.map syntheticChanges).getD []

/-- What memory tells about a change. It is empty where there is no memory. -/
structure Recollection where
  /-- The warnings about it. -/
  warnings : List RiskWarning
  /-- The verdicts on past runs, the newest first. -/
  history : List (Option Verdict)
  /-- How many drifts are remembered. -/
  knownDriftCount : Nat

/-- The verdict of a past run, as far as it can be read. -/
def RunRecord.readVerdict? (run : RunRecord) : Option Verdict :=
  run.verdict.bind fun word => (Verdict.read word).toOption

/-- The largest number of runs that memory can be asked for. -/
def pastRunLimit : Nat := Nat.pow 2 32 - 1

/-- Asks memory about changes: for warnings, for past runs and for the drifts that it knows. -/
def recollect (around : Surroundings m) (changes : List PatchChange) : m Recollection := do
  let warnings ← around.askMemory [] fun memory => memory.warnings changes
  let runs ← around.askMemory [] fun memory =>
    memory.pastRuns (min around.settings.risk.historyWindow pastRunLimit)
  let drifts ← around.askMemory [] SessionMemory.knownDrifts
  return ⟨warnings, runs.map RunRecord.readVerdict?, drifts.length⟩

/-- Judges the risk of a session from what memory tells. -/
def Session.judge (session : Session) (window : Nat) (known : Recollection) (computedAt : String) :
    RiskAssessment Float :=
  assessRisk ⟨known.warnings, known.history, window, known.knownDriftCount, session.graph,
    session.suite.map TestSuite.coveragePct⟩ computedAt

/-- Sends a notice if the score is worth one and somebody receives it. -/
def sendNotice (around : Surroundings m) (session : Session) (assessment : RiskAssessment Float)
    (blocked : Bool) : m Unit :=
  match around.notify with
  | some notify =>
    if shouldNotify assessment.score around.settings.risk.notifyThreshold then
      notify ⟨session.id, session.repository, blocked, assessment⟩
    else return ()
  | none => return ()

/-- What is recorded of a session that the gate blocks. -/
def Session.blockedRequest (session : Session) (assessment : RiskAssessment Float) : RunRequest :=
  ⟨session.id, some .blocked, none, none, some assessment.score, session.judgedChanges⟩

/-- Judges the risk and closes the gate if it is too high. -/
def passGate (around : Surroundings m) (session : Session) : m (Except StageFailure Session) :=
  match session.baselineRun with
  | none => return .error .noBaseline
  | some _ => do
    let risk := around.settings.risk
    let known ← recollect around session.judgedChanges
    let assessment := session.judge risk.historyWindow known (Calendar.momentText (← around.clock))
    let blocked := gateDecision assessment.score risk.blockThreshold == .block
    sendNotice around session assessment blocked
    if blocked then
      around.tellMemory fun memory => memory.recordRun (session.blockedRequest assessment)
    return .ok { session with
      assessment := some assessment
      progress := if blocked then .riskBlocked else .riskAnalyzed }

/-! ### Behind the gate -/

/-- Runs the suite after the migration and compares the runs. -/
def validateMigration (around : Surroundings m) (session : Session) :
    m (Except StageFailure Session) :=
  match session.migratedPath, session.suite, session.baselineRun with
  | none, _, _ => return .error .noMigrated
  | some _, none, _ => return .error .noSuite
  | some _, some _, none => return .error .noBaseline
  | some path, some suite, some baseline => do
    match ← executeSuite around.files around.runner around.settings.harness path suite
      .migrated with
    | .error failure => return .error (.migrated failure)
    | .ok run => return .ok { session with
        migratedRun := some run
        validation := some (classifyDrift baseline run)
        progress := .validated }

/-- What is recorded of a session with a verdict. -/
def Session.verdictRequest (session : Session) (report : ConfidenceReport Float) : RunRequest :=
  ⟨session.id, some report.verdict, some report.preservationPct, some report.criticalDrifts,
    report.riskScore, (session.patch.map MigrationPatch.changes).getD []⟩

/-- What is recorded of a drift, under the function that its test belongs to. -/
def Session.driftRequest (session : Session) (drift : DriftItem) : DriftRequest :=
  ⟨driftFunction drift.testId session.suite, drift.severity, drift.description,
    drift.beforeOutput, drift.afterOutput⟩

/-- Tells memory drifts in order. One that cannot be recorded does not keep back the others. -/
def recordDrifts (around : Surroundings m) (session : Session) : List DriftItem → m Unit
  | [] => return ()
  | drift :: drifts => do
    around.tellMemory fun memory => memory.recordDrift (session.driftRequest drift)
    recordDrifts around session drifts

/-- Gives the verdict, and has memory keep it with the drifts. -/
def giveVerdict (around : Surroundings m) (session : Session) : m (Except StageFailure Session) :=
  match session.validation with
  | none => return .error .noValidation
  | some validation => do
    let report := confidenceReport validation (session.suite.map TestSuite.coveragePct)
      session.assessment
    around.tellMemory fun memory => memory.recordRun (session.verdictRequest report)
    recordDrifts around session validation.drifts
    return .ok { session with report := some report, progress := .complete }

/-! ### All stages -/

/-- Performs a stage on a session, whatever stage it is. -/
def Stage.perform (stage : Stage) (around : Surroundings m) (session : Session) :
    m (Except StageFailure Session) :=
  match stage with
  | .ingest => ingestWorkspace around session
  | .mine => mineWorkflow around session
  | .deadCode => findDeadCode around session
  | .baseline => takeBaseline around session
  | .riskGate => passGate around session
  | .validate => validateMigration around session
  | .report => giveVerdict around session

end MigrationGuard
