/-
This file says what a session knows where it comes to rest. Stages fill in their
findings in order, so the progress alone tells which findings are there: a session
never shows half of what a stage found, and nothing from a stage that failed. This
holds after a first run and after any number of times that the session is taken up
again, in whatever worlds that happens. A session that is ready for a stage has
the findings of all stages before it. A stage then fails, which settles the
session, or makes it ready for the next stage, and at the gate and at the end a
ready session is settled. A settled session that may be taken up again is, once it
is reopened, ready for the stage behind the gate. So both a first run and a later
one lead from a session of which this holds to another one, and the rest is an
induction over the calls.
-/

import MigrationGuard.Proofs.Session.Frame
import MigrationGuard.Session.Summary

namespace MigrationGuard

variable {World : Type}

/-! ### Sessions that are begun, run and taken up again -/

/-- The session has been given its inputs, and nothing has been done. Its other fields are as they
are by default. -/
def Session.IsNew (session : Session) : Prop :=
  session = {
    id := session.id
    repository := session.repository
    targetModule := session.targetModule
    migratedPath := session.migratedPath
    suite := session.suite
    patch := session.patch }

/-- The sessions that a run leaves behind, and those that are left each time such a session is taken
up again. Every call may find another world. -/
inductive Session.Reached : Session → Prop where
  /-- A new session is run. -/
  | ran {World : Type} (around : Surroundings (StateM World)) {session : Session}
      (new : session.IsNew) (world : World) : Reached (runSession around session world).1
  /-- A session is taken up again, and that is not refused. -/
  | resumed {World : Type} (around : Surroundings (StateM World)) {session next : Session}
      (reached : Reached session) (migrated : Option String) (world : World)
      (accepted : (resumeSession around session migrated world).1 = .ok next) : Reached next

/-- A session at rest: how far it has come tells whether there is an error, which findings are
there and what the exit code is. -/
structure Session.Settled (session : Session) : Prop where
  /-- It passed the gate, was stopped by it, was finished or failed. -/
  rests : session.progress = .riskAnalyzed ∨ session.progress = .riskBlocked ∨
    session.progress = .complete ∨ ∃ stage, session.progress = .failed stage
  /-- An error belongs to a failure. -/
  error : session.error.isSome ↔ ∃ stage, session.progress = .failed stage
  /-- The workflow is there unless mining was not reached or failed. -/
  graph : session.graph.isSome ↔ session.progress ∉ [.failed .ingest, .failed .mine]
  /-- The dead code is there from the third stage on. -/
  deadCode : session.deadCode.isSome ↔
    session.progress ∉ [.failed .ingest, .failed .mine, .failed .deadCode]
  /-- The run before the migration is there from the fourth stage on. -/
  baselineRun : session.baselineRun.isSome ↔
    session.progress ∉ [.failed .ingest, .failed .mine, .failed .deadCode, .failed .baseline]
  /-- The risk is there where the gate was reached, whether it let the session pass or not. -/
  assessment : session.assessment.isSome ↔ session.progress ∈
    [.riskAnalyzed, .riskBlocked, .complete, .failed .validate, .failed .report]
  /-- The run after the migration belongs to a finished session. -/
  migratedRun : session.migratedRun.isSome ↔ session.progress = .complete
  /-- The comparison belongs to a finished session. -/
  validation : session.validation.isSome ↔ session.progress = .complete
  /-- The report belongs to a finished session. -/
  report : session.report.isSome ↔ session.progress = .complete
  /-- The exit code is two where the gate is closed, one after a failure and zero otherwise. -/
  exitCode : session.exitCode = match session.progress with
    | .riskBlocked => 2
    | .failed _ => 1
    | _ => 0

/-! ### Findings in front of a stage -/

/-- Which findings are there, in the order of the stages that make them. -/
def Session.found (session : Session) : List Bool :=
  [session.graph.isSome, session.deadCode.isSome, session.baselineRun.isSome,
    session.assessment.isSome, session.migratedRun.isSome, session.validation.isSome,
    session.report.isSome]

/-- Which findings are there when a stage begins: those of all stages before it. -/
def Stage.foundBefore : Stage → List Bool
  | .ingest => [false, false, false, false, false, false, false]
  | .mine => [false, false, false, false, false, false, false]
  | .deadCode => [true, false, false, false, false, false, false]
  | .baseline => [true, true, false, false, false, false, false]
  | .riskGate => [true, true, true, false, false, false, false]
  | .validate => [true, true, true, true, false, false, false]
  | .report => [true, true, true, true, true, true, false]

/-- A session that is ready for a stage: it has not failed, is not blocked, and all stages before
that one have left their findings. -/
structure Stage.Ready (stage : Stage) (session : Session) : Prop where
  /-- Nothing failed. -/
  noError : session.error = none
  /-- The gate is not closed. -/
  isOpen : session.progress ≠ .riskBlocked
  /-- The findings so far. -/
  found : session.found = stage.foundBefore

theorem Stage.Ready.not_stopped {stage : Stage} {session : Session} (ready : stage.Ready session) :
    ¬ session.isStopped := by
  rw [session.isStopped_iff, ready.noError]
  simp [ready.isOpen]

/-- A session that fails at a stage is settled. The last stage is none of those that can fail. -/
theorem Stage.Ready.settled_failedAt {stage : Stage} {session : Session}
    (ready : stage.Ready session) (early : stage ≠ .report) (reason : String) :
    (session.failedAt stage reason).Settled := by
  have found := ready.found
  cases stage <;> simp [Session.found, Stage.foundBefore] at found early <;>
    constructor <;> simp [Session.failedAt, Session.exitCode, found]

/-- What a run ends with follows from the ends of its first stage: to rest, to fail, or to go on
from a session in which that stage succeeded. -/
theorem runStages_induct (around : Surroundings (StateM World)) (pauses : Bool) {stage : Stage}
    {stages : List Stage} {session : Session} {property : Session → Prop} (world : World)
    (stopped : ¬ session.isStopped)
    (rests : session.restsIn pauses [stage] → property session)
    (fails : ∀ failure, (stage.perform around session world).1 = .error failure →
      property (session.failedAt stage failure.message))
    (turns : ∀ after left, stage.Turns session after →
      property (runStages around pauses stages after left).1) :
    property (runStages around pauses (stage :: stages) session world).1 := by
  let ending : Session × World → Prop := fun ends => property ends.1
  show ending (runStages around pauses (stage :: stages) session world)
  refine runStages_ends around pauses stopped rests ?_ ?_
  · intro failure left failed
    exact fails failure (by rw [failed])
  · intro after left succeeded
    exact turns after left (Stage.turns_of_perform (by rw [succeeded]))

/-- A session that rests at the gate is settled, whether the gate is open or closed. -/
theorem settled_at_gate {session : Session} (noError : session.error = none)
    (found : session.found = Stage.foundBefore .validate)
    (gate : session.progress = .riskAnalyzed ∨ session.progress = .riskBlocked) :
    session.Settled := by
  simp [Session.found, Stage.foundBefore] at found
  rcases gate with passed | blocked
  · constructor <;> simp [Session.exitCode, passed, noError, found]
  · constructor <;> simp [Session.exitCode, blocked, noError, found]

/-- A finished session is settled, as it has all findings and no error. -/
theorem settled_at_end {session : Session} (noError : session.error = none)
    (found : session.found = [true, true, true, true, true, true, true])
    (complete : session.progress = .complete) : session.Settled := by
  simp [Session.found] at found
  constructor <;> simp [Session.exitCode, complete, noError, found]

/-! ### Runs from each stage on -/

/-- A comparison is all that the last stage needs, so it does not fail. -/
theorem giveVerdict_ne_error (around : Surroundings (StateM World)) {session : Session}
    (compared : session.validation.isSome) :
    Ensures (giveVerdict around session) fun outcome => ∀ failure, outcome ≠ .error failure := by
  unfold giveVerdict
  split
  · rename_i missing
    rw [missing] at compared
    exact absurd compared Bool.false_ne_true
  · exact Ensures.bind fun _ => Ensures.bind fun _ => Ensures.pure fun _ failed => nomatch failed

theorem settled_from_report (around : Surroundings (StateM World)) (pauses : Bool)
    {session : Session} (ready : Stage.report.Ready session) (world : World) :
    (runStages around pauses [.report] session world).1.Settled := by
  have found := ready.found
  simp only [Session.found, Stage.foundBefore, List.cons.injEq] at found
  refine runStages_induct around pauses world ready.not_stopped ?_ ?_ ?_
  · intro rests
    simp [Session.restsIn] at rests
  · intro failure failed
    exact absurd failed (giveVerdict_ne_error around found.2.2.2.2.2.1 world failure)
  · intro after left turns
    cases turns with
    | report compared report =>
      show ({ session with report := some report, progress := .complete } : Session).Settled
      exact settled_at_end ready.noError (by simp [Session.found, found]) rfl

theorem settled_from_validate (around : Surroundings (StateM World)) (pauses : Bool)
    {session : Session} (ready : Stage.validate.Ready session)
    (passed : session.progress = .riskAnalyzed) (world : World) :
    (runStages around pauses [.validate, .report] session world).1.Settled := by
  have found := ready.found
  simp only [Session.found, Stage.foundBefore, List.cons.injEq] at found
  refine runStages_induct around pauses world ready.not_stopped ?_ ?_ ?_
  · intro _
    exact settled_at_gate ready.noError ready.found (Or.inl passed)
  · intro failure _
    exact ready.settled_failedAt (by decide) failure.message
  · intro after left turns
    refine settled_from_report around pauses ?_ left
    cases turns with
    | validate migrated given baseline taken run =>
      exact ⟨ready.noError, by simp, by simp [Session.found, Stage.foundBefore, found]⟩

/-- A stage in front of the gate never lets a run rest, as only a validation asks for the other
workspace. -/
theorem Session.not_restsIn (session : Session) (pauses : Bool) {stage : Stage}
    (other : stage ≠ .validate) : ¬ session.restsIn pauses [stage] := by
  simp [Session.restsIn, Ne.symm other]

theorem settled_from_riskGate (around : Surroundings (StateM World)) (pauses : Bool)
    {session : Session} (ready : Stage.riskGate.Ready session) (world : World) :
    (runStages around pauses [.riskGate, .validate, .report] session world).1.Settled := by
  have found := ready.found
  simp only [Session.found, Stage.foundBefore, List.cons.injEq] at found
  refine runStages_induct around pauses world ready.not_stopped ?_ ?_ ?_
  · intro rests
    exact absurd rests (session.not_restsIn pauses (by decide))
  · intro failure _
    exact ready.settled_failedAt (by decide) failure.message
  · intro after left turns
    cases turns with
    | passed taken assessment =>
      refine settled_from_validate around pauses ?_ rfl left
      exact ⟨ready.noError, by simp, by simp [Session.found, Stage.foundBefore, found]⟩
    | blocked taken assessment =>
      rw [runStages_of_stopped around pauses _ ((Session.isStopped_iff _).mpr (Or.inr rfl))]
      exact settled_at_gate ready.noError (by simp [Session.found, Stage.foundBefore, found])
        (Or.inr rfl)

/-- In front of the gate a stage either fails or makes the session ready for the next one. -/
theorem settled_from_early (around : Surroundings (StateM World)) (pauses : Bool)
    {stage next : Stage} {stages : List Stage} {session : Session} (ready : stage.Ready session)
    (early : stage ≠ .validate ∧ stage ≠ .report)
    (goesOn : ∀ after, stage.Turns session after → next.Ready after)
    (later : ∀ after left, next.Ready after →
      (runStages around pauses stages after left).1.Settled) (world : World) :
    (runStages around pauses (stage :: stages) session world).1.Settled := by
  refine runStages_induct around pauses world ready.not_stopped ?_ ?_ ?_
  · intro rests
    exact absurd rests (session.not_restsIn pauses early.1)
  · intro failure _
    exact ready.settled_failedAt early.2 failure.message
  · intro after left turns
    exact later after left (goesOn after turns)

theorem settled_from_baseline (around : Surroundings (StateM World)) (pauses : Bool)
    {session : Session} (ready : Stage.baseline.Ready session) (world : World) :
    (runStages around pauses [.baseline, .riskGate, .validate, .report] session
      world).1.Settled := by
  refine settled_from_early around pauses ready (by decide) ?_
    (fun after left next => settled_from_riskGate around pauses next left) world
  intro after turns
  have found := ready.found
  simp only [Session.found, Stage.foundBefore, List.cons.injEq] at found
  cases turns with
  | baseline given run =>
    exact ⟨ready.noError, by simp, by simp [Session.found, Stage.foundBefore, found]⟩

theorem settled_from_deadCode (around : Surroundings (StateM World)) (pauses : Bool)
    {session : Session} (ready : Stage.deadCode.Ready session) (world : World) :
    (runStages around pauses [.deadCode, .baseline, .riskGate, .validate, .report] session
      world).1.Settled := by
  refine settled_from_early around pauses ready (by decide) ?_
    (fun after left next => settled_from_baseline around pauses next left) world
  intro after turns
  have found := ready.found
  simp only [Session.found, Stage.foundBefore, List.cons.injEq] at found
  cases turns with
  | deadCode known report =>
    exact ⟨ready.noError, by simp, by simp [Session.found, Stage.foundBefore, found]⟩

theorem settled_from_mine (around : Surroundings (StateM World)) (pauses : Bool)
    {session : Session} (ready : Stage.mine.Ready session) (world : World) :
    (runStages around pauses [.mine, .deadCode, .baseline, .riskGate, .validate, .report] session
      world).1.Settled := by
  refine settled_from_early around pauses ready (by decide) ?_
    (fun after left next => settled_from_deadCode around pauses next left) world
  intro after turns
  have found := ready.found
  simp only [Session.found, Stage.foundBefore, List.cons.injEq] at found
  cases turns with
  | mine graph changed =>
    exact ⟨ready.noError, by simp, by simp [Session.found, Stage.foundBefore, found]⟩

/-- A first run of a new session ends settled, whatever world it is run in. -/
theorem settled_runSession (around : Surroundings (StateM World)) {session : Session}
    (new : session.IsNew) (world : World) : (runSession around session world).1.Settled := by
  have ready : Stage.ingest.Ready session := by
    rw [new]
    exact ⟨rfl, by simp, rfl⟩
  refine settled_from_early around true ready (by decide) ?_
    (fun after left next => settled_from_mine around true next left) world
  intro after turns
  cases turns with
  | ingest => exact ⟨ready.noError, by simp, ready.found⟩

theorem Progress.isResumable_iff (progress : Progress) : progress.isResumable ↔
    progress ∈ [.riskAnalyzed, .riskBlocked, .failed .validate, .failed .report] := by
  unfold Progress.isResumable
  split <;> simp_all

/-- What a settled session holds when it is taken up again is what the stages in front of the gate
found. -/
theorem Session.Settled.ready_reopened {session : Session} (settled : session.Settled)
    (resumable : session.progress.isResumable) (migrated : Option String) :
    Stage.validate.Ready (session.reopened migrated) := by
  refine ⟨rfl, by simp [Session.reopened], ?_⟩
  have same : (session.reopened migrated).found = session.found := rfl
  rw [Progress.isResumable_iff] at resumable
  rw [same]
  simp only [Session.found, Stage.foundBefore, List.cons.injEq, Bool.eq_false_iff, ne_eq,
    settled.graph, settled.deadCode, settled.baselineRun, settled.assessment, settled.migratedRun,
    settled.validation, settled.report]
  simp only [List.mem_cons, List.not_mem_nil, or_false] at resumable
  rcases resumable with rests | rests | rests | rests <;> simp [rests]

theorem resumeSession_of_resumable (around : Surroundings (StateM World)) {session : Session}
    (resumable : session.progress.isResumable) (migrated : Option String) (world : World) :
    resumeSession around session migrated world =
      (.ok (runStages around false Stage.behindGate (session.reopened migrated) world).1,
        (runStages around false Stage.behindGate (session.reopened migrated) world).2) := by
  rw [resumeSession, if_pos resumable]
  rfl

/-- A settled session that is taken up again ends settled, if that is not refused. -/
theorem settled_resumeSession (around : Surroundings (StateM World)) {session next : Session}
    (settled : session.Settled) (migrated : Option String) (world : World)
    (accepted : (resumeSession around session migrated world).1 = .ok next) : next.Settled := by
  unfold resumeSession at accepted
  split at accepted
  · rename_i resumable
    have ends : (runStages around false [.validate, .report] (session.reopened migrated)
        world).1 = next := Except.ok.inj accepted
    rw [← ends]
    exact settled_from_validate around false (settled.ready_reopened resumable migrated) rfl world
  · exact nomatch accepted

/-- Every session that is left behind by a first run or by being taken up again is settled. -/
theorem Session.Reached.settled {session : Session} (reached : session.Reached) :
    session.Settled := by
  induction reached with
  | ran around new world => exact settled_runSession around new world
  | resumed around reached migrated world accepted inductionHypothesis =>
    exact settled_resumeSession around inductionHypothesis migrated world accepted

/-! ### A quiet world -/

/-- A world with one empty source file, in which every runner succeeds. Nothing is remembered, and
nobody receives notices. -/
def quietSurroundings : Surroundings (StateM Unit) where
  settings := {}
  files := {
    find := fun _ => return .ok (.directory [("app.py", .file [])])
    read := fun _ => return .ok []
    write := fun _ _ => return .ok ()
    makeDirectories := fun _ => return .ok ()
    removeDirectory := fun _ => return .ok ()
    removeFile := fun _ => return .ok ()
    resolve := fun path => return .ok path }
  runner := fun _ => return .finished "1 passed" 1.0
  memory := none
  notify := none
  clock := return 0

/-- A session without tests, so that every runner will do. -/
def quietSession : Session where
  id := "quiet"
  repository := "old"
  targetModule := some "billing"
  suite := some ⟨[], 100.0, [], []⟩

/-- The session rests at the gate and is finished when it is taken up again. -/
theorem quietSession_settled :
    let paused := (runSession quietSurroundings quietSession ()).1
    ∃ next, (resumeSession quietSurroundings paused (some "new") ()).1 = .ok next ∧
      next.progress = .complete ∧ next.Settled := by
  intro paused
  have new : quietSession.IsNew := rfl
  have reached : paused.Reached := .ran quietSurroundings new ()
  have resumable : paused.progress.isResumable = true := by decide +kernel
  have accepted := congrArg Prod.fst
    (resumeSession_of_resumable quietSurroundings resumable (some "new") ())
  refine ⟨_, accepted, by decide +kernel, ?_⟩
  exact Session.Reached.settled (.resumed quietSurroundings reached (some "new") () accepted)

end MigrationGuard
