/-
This file names the stages of a session and how far a session has come. A session
that stopped at a failure says which stage failed. Stages follow one another in
one order, and the gate lies between the first five and the last two, so where a
session rests is told by its progress alone. Progress is written as a word, and a
failure as a record that names the stage.
-/

import MigrationGuard.Data.Word

namespace MigrationGuard

open Data

/-! ### Stages -/

/-- A stage of a session. Each one needs what those before it found out. -/
inductive Stage where
  /-- The workspace is looked at. -/
  | ingest
  /-- The workflow is mined. -/
  | mine
  | deadCode
  /-- The suite is run before the migration. -/
  | baseline
  /-- The risk is judged. -/
  | riskGate
  /-- The suite is run after the migration. -/
  | validate
  /-- The verdict is given. -/
  | report
  deriving DecidableEq, Repr

namespace Stage

/-- The stages in the order in which they run. -/
def inOrder : List Stage :=
  [.ingest, .mine, .deadCode, .baseline, .riskGate, .validate, .report]

/-- The stages behind the gate, which a session that is taken up again goes through. -/
def behindGate : List Stage := [.validate, .report]

instance : Named Stage where
  noun := "stage"
  all := inOrder
  name
    | .ingest => "ingest"
    | .mine => "mine"
    | .deadCode => "dead_code"
    | .baseline => "baseline"
    | .riskGate => "risk_gate"
    | .validate => "validate"
    | .report => "report"

instance : OfValue Stage := ⟨ofWord? Named.table⟩

end Stage

/-! ### Progress -/

/-- How far a session has come, told by the last stage that ended or by the one that failed. -/
inductive Progress where
  /-- Nothing has been done. -/
  | starting
  /-- The workspace holds sources. -/
  | ingested
  /-- The workflow is known. -/
  | mined
  | deadCodeFound
  /-- The behaviour before the migration is known. -/
  | baselineTaken
  /-- The risk is known and not too high. -/
  | riskAnalyzed
  /-- The risk is too high. -/
  | riskBlocked
  /-- The behaviour after the migration is known. -/
  | validated
  /-- The verdict is given. -/
  | complete
  /-- A stage failed. -/
  | failed (stage : Stage)
  deriving DecidableEq, Repr

namespace Progress

instance : Inhabited Progress := ⟨.starting⟩

/-- The word for the progress of a session, in data files and messages. -/
def label : Progress → String
  | .starting => "starting"
  | .ingested => "ingest_complete"
  | .mined => "workflow_mined"
  | .deadCodeFound => "dead_code_detected"
  | .baselineTaken => "baseline_complete"
  | .riskAnalyzed => "risk_analyzed"
  | .riskBlocked => "risk_blocked"
  | .validated => "validation_complete"
  | .complete => "complete"
  | .failed stage => Named.name stage ++ "_failed"

/-- The progress of sessions without a failure, each with its word. -/
def table : List (String × Progress) :=
  [Progress.starting, .ingested, .mined, .deadCodeFound, .baselineTaken, .riskAnalyzed,
    .riskBlocked, .validated, .complete].map fun progress => (progress.label, progress)

/-- A failure is written as a record that names the stage, all else as a word. -/
instance : ToValue Progress where
  toValue
    | .failed stage => .record [("failed", toValue stage)]
    | progress => .text progress.label

instance : OfValue Progress where
  ofValue?
    | .record [("failed", stage)] => (ofValue? stage).map .failed
    | value => ofWord? table value

end Progress

end MigrationGuard
