/-
This file says what a stage may change. A stage that succeeds fills fields of its
own and moves the progress on; a stage that fails leaves all but the failure as it
was; and a session that is stopped is left alone by all that follows. The files,
the runner, memory and the clock are those of an arbitrary world. For each stage
the sessions are listed in which it can succeed, with what it needs of the session
before it. That each stage ends in one of them or fails is shown once; from then
on no stage has to be opened again. A run of stages is a run of the first ones
followed by a run of the others, unless it rests among the first, and what a run
of one stage more does is said for every list of stages, every session and every
world.
-/

import MigrationGuard.Proofs.Actions
import MigrationGuard.Session.Run

namespace MigrationGuard

variable {World : Type}

/-! ### What a stage does when it succeeds -/

/-- The session after a stage that succeeded. Each stage is listed with all that it needs and all
that it writes. -/
inductive Stage.Turns (before : Session) : Stage → Session → Prop where
  /-- The workspace holds sources. -/
  | ingest : Turns before .ingest { before with progress := .ingested }
  /-- The workflow is filled in, and memory may tell which functions changed. -/
  | mine (graph : WorkflowGraph) (changed : List ChangedFunction) :
    Turns before .mine { before with
      graph := some graph, changedFunctions := changed, progress := .mined }
  /-- The dead code of a known workflow is filled in. -/
  | deadCode (known : before.graph.isSome) (report : DeadCodeReport) :
    Turns before .deadCode { before with deadCode := some report, progress := .deadCodeFound }
  /-- The run of a given suite is filled in. -/
  | baseline (given : before.suite.isSome) (run : TestRun) :
    Turns before .baseline { before with baselineRun := some run, progress := .baselineTaken }
  /-- The risk is filled in and the gate is open. -/
  | passed (taken : before.baselineRun.isSome) (assessment : RiskAssessment Float) :
    Turns before .riskGate { before with
      assessment := some assessment, progress := .riskAnalyzed }
  /-- The risk is filled in and the gate is closed. -/
  | blocked (taken : before.baselineRun.isSome) (assessment : RiskAssessment Float) :
    Turns before .riskGate { before with
      assessment := some assessment, progress := .riskBlocked }
  /-- The second run and the comparison are filled in together. -/
  | validate (migrated : before.migratedPath.isSome) (given : before.suite.isSome)
      (baseline : TestRun) (taken : before.baselineRun = some baseline) (run : TestRun) :
    Turns before .validate { before with
      migratedRun := some run
      validation := some (classifyDrift baseline run)
      progress := .validated }
  /-- The report on the comparison is filled in. -/
  | report (compared : before.validation.isSome) (report : ConfidenceReport Float) :
    Turns before .report { before with report := some report, progress := .complete }

/-- A stage that succeeds ends in one of the sessions listed for it. -/
def Stage.Ends (stage : Stage) (before : Session) : Except StageFailure Session → Prop
  | .ok after => stage.Turns before after
  | .error _ => True

theorem ingestWorkspace_ends (around : Surroundings (StateM World)) (session : Session) :
    Ensures (ingestWorkspace around session) (Stage.ingest.Ends session) := by
  unfold ingestWorkspace
  refine Ensures.bind fun found => Ensures.pure ?_
  cases (around.miner session.repository).sources found none with
  | error failure => exact trivial
  | ok sources => exact .ingest

theorem mineWorkflow_ends (around : Surroundings (StateM World)) (session : Session) :
    Ensures (mineWorkflow around session) (Stage.mine.Ends session) := by
  unfold mineWorkflow
  refine Ensures.bind fun found => ?_
  cases (around.miner session.repository).mine found session.targetModule with
  | error failure => exact Ensures.pure trivial
  | ok outcome => exact Ensures.bind fun changed => Ensures.pure (.mine outcome.graph changed)

theorem findDeadCode_ends (around : Surroundings (StateM World)) (session : Session) :
    Ensures (findDeadCode around session) (Stage.deadCode.Ends session) := by
  unfold findDeadCode
  split
  · exact Ensures.pure trivial
  · rename_i graph known
    refine Ensures.bind fun found => Ensures.pure ?_
    cases (around.miner session.repository).sources found session.targetModule with
    | error failure => exact trivial
    | ok files => exact .deadCode (Option.isSome_of_eq_some known) _

theorem takeBaseline_ends (around : Surroundings (StateM World)) (session : Session) :
    Ensures (takeBaseline around session) (Stage.baseline.Ends session) := by
  unfold takeBaseline
  split
  · exact Ensures.pure trivial
  · rename_i suite given
    refine Ensures.bind fun outcome => ?_
    cases outcome with
    | error failure => exact Ensures.pure trivial
    | ok run => exact Ensures.pure (.baseline (Option.isSome_of_eq_some given) run)

theorem passGate_ends (around : Surroundings (StateM World)) (session : Session) :
    Ensures (passGate around session) (Stage.riskGate.Ends session) := by
  unfold passGate
  split
  · exact Ensures.pure trivial
  · rename_i baseline taken
    have given : session.baselineRun.isSome := Option.isSome_of_eq_some taken
    refine Ensures.bind fun known => Ensures.bind fun time => Ensures.bind fun _ => ?_
    split
    · exact Ensures.bind fun _ => Ensures.pure (.blocked given _)
    · exact Ensures.pure (.passed given _)

theorem validateMigration_ends (around : Surroundings (StateM World)) (session : Session) :
    Ensures (validateMigration around session) (Stage.validate.Ends session) := by
  unfold validateMigration
  split
  · exact Ensures.pure trivial
  · exact Ensures.pure trivial
  · exact Ensures.pure trivial
  · rename_i path suite baseline migrated given taken
    refine Ensures.bind fun outcome => ?_
    cases outcome with
    | error failure => exact Ensures.pure trivial
    | ok run =>
      exact Ensures.pure (.validate (Option.isSome_of_eq_some migrated)
        (Option.isSome_of_eq_some given) baseline taken run)

theorem giveVerdict_ends (around : Surroundings (StateM World)) (session : Session) :
    Ensures (giveVerdict around session) (Stage.report.Ends session) := by
  unfold giveVerdict
  split
  · exact Ensures.pure trivial
  · rename_i validation compared
    refine Ensures.bind fun _ => Ensures.bind fun _ => Ensures.pure ?_
    exact .report (Option.isSome_of_eq_some compared) _

/-- Every stage ends in one of the sessions listed for it or in a failure. -/
theorem Stage.perform_ends (stage : Stage) (around : Surroundings (StateM World))
    (session : Session) : Ensures (stage.perform around session) (stage.Ends session) := by
  cases stage with
  | ingest => exact ingestWorkspace_ends around session
  | mine => exact mineWorkflow_ends around session
  | deadCode => exact findDeadCode_ends around session
  | baseline => exact takeBaseline_ends around session
  | riskGate => exact passGate_ends around session
  | validate => exact validateMigration_ends around session
  | report => exact giveVerdict_ends around session

/-- A stage that succeeded ended in one of the sessions listed for it. -/
theorem Stage.turns_of_perform {stage : Stage} {around : Surroundings (StateM World)}
    {session after : Session} {world : World}
    (succeeded : (stage.perform around session world).1 = .ok after) :
    stage.Turns session after := by
  have ends := stage.perform_ends around session world
  rw [succeeded] at ends
  exact ends

/-! ### The fields that a stage may write -/

/-- The two sessions differ at most in the progress and in the fields that belong to the stage. -/
def Stage.WritesOnly (stage : Stage) (before after : Session) : Prop :=
  match stage with
  | .ingest => after = { before with progress := after.progress }
  | .mine => after = { before with
      graph := after.graph
      changedFunctions := after.changedFunctions
      progress := after.progress }
  | .deadCode => after = { before with deadCode := after.deadCode, progress := after.progress }
  | .baseline =>
    after = { before with baselineRun := after.baselineRun, progress := after.progress }
  | .riskGate =>
    after = { before with assessment := after.assessment, progress := after.progress }
  | .validate => after = { before with
      migratedRun := after.migratedRun
      validation := after.validation
      progress := after.progress }
  | .report => after = { before with report := after.report, progress := after.progress }

/-- A stage that succeeds writes its own fields only, apart from the progress. -/
theorem Stage.Turns.writesOnly {stage : Stage} {before after : Session}
    (turns : stage.Turns before after) : stage.WritesOnly before after := by
  cases turns <;> rfl

theorem Stage.Turns.error {stage : Stage} {before after : Session}
    (turns : stage.Turns before after) : after.error = before.error := by
  cases turns <;> rfl

/-- The session as it was begun: with what it was given, and before anything was done. -/
def Session.begun (session : Session) : Session where
  id := session.id
  repository := session.repository
  targetModule := session.targetModule
  migratedPath := session.migratedPath
  suite := session.suite
  patch := session.patch

theorem Stage.Turns.begun {stage : Stage} {before after : Session}
    (turns : stage.Turns before after) : after.begun = before.begun := by
  cases turns <;> rfl

/-! ### One stage of a run -/

theorem advance_of_ok {around : Surroundings (StateM World)} {stage : Stage}
    {session after : Session} {world left : World}
    (performed : stage.perform around session world = (.ok after, left)) :
    advance around stage session world = (after, left) := by
  show (stage.perform around session >>= _) world = _
  simp only [bind, StateT.bind, performed]
  rfl

theorem advance_of_error {around : Surroundings (StateM World)} {stage : Stage}
    {session : Session} {failure : StageFailure} {world left : World}
    (performed : stage.perform around session world = (.error failure, left)) :
    advance around stage session world = (session.failedAt stage failure.message, left) := by
  show (stage.perform around session >>= _) world = _
  simp only [bind, StateT.bind, performed]
  rfl

/-- No stage changes what the session was given, whether it succeeds or fails. -/
theorem advance_begun (around : Surroundings (StateM World)) (stage : Stage) (session : Session)
    (world : World) : (advance around stage session world).1.begun = session.begun := by
  rcases performed : stage.perform around session world with ⟨failure | after, left⟩
  · rw [advance_of_error performed]
    rfl
  · rw [advance_of_ok performed]
    have succeeded : (stage.perform around session world).1 = .ok after := by rw [performed]
    exact (Stage.turns_of_perform succeeded).begun

theorem advance_migratedPath (around : Surroundings (StateM World)) (stage : Stage)
    (session : Session) (world : World) :
    (advance around stage session world).1.migratedPath = session.migratedPath := by
  have same := congrArg Session.migratedPath (advance_begun around stage session world)
  exact same

theorem advance_repository (around : Surroundings (StateM World)) (stage : Stage)
    (session : Session) (world : World) :
    (advance around stage session world).1.repository = session.repository := by
  have same := congrArg Session.repository (advance_begun around stage session world)
  exact same

/-! ### Runs -/

/-- A run of the stages rests in front of a validation, as the workspace for it is not known yet. -/
def Session.restsIn (session : Session) (pauses : Bool) (stages : List Stage) : Bool :=
  pauses && session.migratedPath.isNone && stages.contains .validate

theorem Session.restsIn_nil (session : Session) (pauses : Bool) :
    session.restsIn pauses [] = false := by
  simp [Session.restsIn]

theorem Session.restsIn_cons (session : Session) (pauses : Bool) (stage : Stage)
    (stages : List Stage) :
    session.restsIn pauses (stage :: stages) =
      (session.restsIn pauses [stage] || session.restsIn pauses stages) := by
  simp only [Session.restsIn, List.contains_cons, List.contains_nil, Bool.or_false,
    Bool.and_or_distrib_left]

theorem Session.restsIn_singleton (session : Session) (pauses : Bool) (stage : Stage) :
    session.restsIn pauses [stage] =
      (pauses && stage == .validate && session.migratedPath.isNone) := by
  simp only [Session.restsIn, List.contains_cons, List.contains_nil, Bool.or_false,
    Bool.and_right_comm, BEq.comm]

theorem restsIn_advance (around : Surroundings (StateM World)) (pauses : Bool) (stage : Stage)
    (stages : List Stage) (session : Session) (world : World) :
    (advance around stage session world).1.restsIn pauses stages =
      session.restsIn pauses stages := by
  simp only [Session.restsIn, advance_migratedPath]

theorem runStages_of_stopped (around : Surroundings (StateM World)) (pauses : Bool)
    (stages : List Stage) {session : Session} (stopped : session.isStopped) (world : World) :
    runStages around pauses stages session world = (session, world) := by
  cases stages with
  | nil => rfl
  | cons stage stages =>
    rw [runStages, if_pos stopped]
    rfl

/-- A run performs its first stage and goes on from there, if it neither is stopped nor rests. -/
theorem runStages_cons (around : Surroundings (StateM World)) (pauses : Bool) (stage : Stage)
    (stages : List Stage) {session : Session} (stopped : ¬ session.isStopped)
    (rests : ¬ session.restsIn pauses [stage]) (world : World) :
    runStages around pauses (stage :: stages) session world =
      runStages around pauses stages (advance around stage session world).1
        (advance around stage session world).2 := by
  rw [Session.restsIn_singleton] at rests
  rw [runStages, if_neg stopped, if_neg rests]
  rfl

/-- A run that rests in front of a stage leaves all as it is. -/
theorem runStages_of_rests (around : Surroundings (StateM World)) (pauses : Bool) (stage : Stage)
    (stages : List Stage) {session : Session} (rests : session.restsIn pauses [stage])
    (world : World) :
    runStages around pauses (stage :: stages) session world = (session, world) := by
  rw [Session.restsIn_singleton] at rests
  by_cases stopped : session.isStopped
  · exact runStages_of_stopped around pauses _ stopped world
  · rw [runStages, if_neg stopped, if_pos rests]
    rfl

/-- A run of stages is a run of the first of them, followed by a run of the others unless it rests
among the first. -/
theorem runStages_append (around : Surroundings (StateM World)) (pauses : Bool)
    (stages later : List Stage) (session : Session) (world : World) :
    runStages around pauses (stages ++ later) session world =
      if session.restsIn pauses stages then runStages around pauses stages session world
      else runStages around pauses later (runStages around pauses stages session world).1
        (runStages around pauses stages session world).2 := by
  induction stages generalizing session world with
  | nil =>
    rw [Session.restsIn_nil]
    rfl
  | cons stage stages inductionHypothesis =>
    rw [List.cons_append, Session.restsIn_cons]
    by_cases stopped : session.isStopped
    · rw [runStages_of_stopped around pauses (stage :: stages) stopped,
        runStages_of_stopped around pauses _ stopped,
        runStages_of_stopped around pauses later stopped, ite_self]
    · by_cases rests : session.restsIn pauses [stage]
      · rw [runStages_of_rests around pauses stage _ rests,
          runStages_of_rests around pauses stage _ rests, rests, Bool.true_or, if_pos rfl]
      · rw [runStages_cons around pauses stage _ stopped rests,
          runStages_cons around pauses stage _ stopped rests, inductionHypothesis,
          restsIn_advance, Bool.eq_false_iff.mpr rests, Bool.false_or]

/-- No run changes what the session was given, however many stages it has. -/
theorem runStages_begun (around : Surroundings (StateM World)) (pauses : Bool)
    (stages : List Stage) (session : Session) (world : World) :
    (runStages around pauses stages session world).1.begun = session.begun := by
  induction stages generalizing session world with
  | nil => rfl
  | cons stage stages inductionHypothesis =>
    by_cases stopped : session.isStopped
    · rw [runStages_of_stopped around pauses _ stopped]
    · by_cases rests : session.restsIn pauses [stage]
      · rw [runStages_of_rests around pauses stage _ rests]
      · rw [runStages_cons around pauses stage _ stopped rests, inductionHypothesis, advance_begun]

theorem runStages_migratedPath (around : Surroundings (StateM World)) (pauses : Bool)
    (stages : List Stage) (session : Session) (world : World) :
    (runStages around pauses stages session world).1.migratedPath = session.migratedPath := by
  have same := congrArg Session.migratedPath (runStages_begun around pauses stages session world)
  exact same

theorem runStages_repository (around : Surroundings (StateM World)) (pauses : Bool)
    (stages : List Stage) (session : Session) (world : World) :
    (runStages around pauses stages session world).1.repository = session.repository := by
  have same := congrArg Session.repository (runStages_begun around pauses stages session world)
  exact same

theorem Session.isStopped_iff (session : Session) :
    session.isStopped ↔ session.error.isSome ∨ session.progress = .riskBlocked := by
  simp only [Session.isStopped, Bool.or_eq_true, beq_iff_eq]

theorem Stage.Turns.not_blocked {stage : Stage} {before after : Session}
    (turns : stage.Turns before after) (other : stage ≠ .riskGate) :
    after.progress ≠ .riskBlocked := by
  cases turns with
  | passed => exact absurd rfl other
  | blocked => exact absurd rfl other
  | _ => exact Progress.noConfusion

/-- A stage that succeeds does not stop a session, unless it closes the gate. -/
theorem Stage.Turns.not_stopped {stage : Stage} {before after : Session}
    (turns : stage.Turns before after) (isOpen : ¬ before.isStopped)
    (unblocked : after.progress ≠ .riskBlocked) : ¬ after.isStopped := by
  rw [Session.isStopped_iff] at isOpen ⊢
  rw [turns.error]
  exact fun stopped => stopped.elim (fun failed => isOpen (.inl failed)) unblocked

/-- What a run ends with, and in which world, follows from the ends of its first stage: to rest, to
fail, or to go on from where that stage succeeded. -/
theorem runStages_ends (around : Surroundings (StateM World)) (pauses : Bool) {stage : Stage}
    {stages : List Stage} {session : Session} {property : Session × World → Prop} {world : World}
    (stopped : ¬ session.isStopped)
    (rests : session.restsIn pauses [stage] → property (session, world))
    (fails : ∀ failure left, stage.perform around session world = (.error failure, left) →
      property (session.failedAt stage failure.message, left))
    (turns : ∀ after left, stage.perform around session world = (.ok after, left) →
      property (runStages around pauses stages after left)) :
    property (runStages around pauses (stage :: stages) session world) := by
  by_cases resting : session.restsIn pauses [stage]
  · rw [runStages_of_rests around pauses stage stages resting]
    exact rests resting
  rw [runStages_cons around pauses stage stages stopped resting]
  rcases outcome : stage.perform around session world with ⟨failure | after, left⟩
  · have last : (session.failedAt stage failure.message).isStopped :=
      (Session.isStopped_iff _).mpr (Or.inl rfl)
    rw [advance_of_error outcome, runStages_of_stopped around pauses _ last]
    exact fails failure left outcome
  · rw [advance_of_ok outcome]
    exact turns after left outcome

/-- All that follows a stop leaves the session and the world alone, and so does a rest. -/
theorem runStages_append_of_stopped (around : Surroundings (StateM World)) (pauses : Bool)
    (stages later : List Stage) (session : Session) (world : World)
    (stopped : (runStages around pauses stages session world).1.isStopped) :
    runStages around pauses (stages ++ later) session world =
      runStages around pauses stages session world := by
  rw [runStages_append, runStages_of_stopped around pauses later stopped]
  exact ite_self _

/-- A run of one stage more either leaves all as it is, because the session is stopped or rests, or
is the performance of that stage. A stage that succeeds writes its own fields and the progress; one
that fails leaves the session before it with the failure noted. A session that holds an error or
stands before a closed gate is left as it is by all stages that follow, and so is the world. -/
theorem runStages_frame (around : Surroundings (StateM World)) (pauses : Bool)
    (stages later : List Stage) (stage : Stage) (session : Session) (world : World) :
    let before := runStages around pauses stages session world
    let after := runStages around pauses (stages ++ [stage]) session world
    (if before.1.isStopped || session.restsIn pauses (stages ++ [stage]) then after = before
      else match stage.perform around before.1 before.2 with
        | (.ok next, left) => after = (next, left) ∧ stage.WritesOnly before.1 next
        | (.error failure, left) =>
          after = ({ before.1 with
            progress := .failed stage, error := some failure.message }, left)) ∧
    (before.1.error.isSome ∨ before.1.progress = .riskBlocked →
      runStages around pauses (stages ++ later) session world = before) := by
  intro before after
  have rest : before.1.restsIn pauses [stage] = session.restsIn pauses [stage] := by
    simp only [before, Session.restsIn, runStages_migratedPath]
  have split : session.restsIn pauses (stages ++ [stage]) =
      (session.restsIn pauses stages || session.restsIn pauses [stage]) := by
    simp only [Session.restsIn, List.contains_append, Bool.and_or_distrib_left]
  have appended : after = if session.restsIn pauses stages then before
      else runStages around pauses [stage] before.1 before.2 :=
    runStages_append around pauses stages [stage] session world
  constructor
  · by_cases stopped : before.1.isStopped
    · rw [stopped, Bool.true_or, if_pos rfl]
      exact runStages_append_of_stopped around pauses stages [stage] session world stopped
    rw [Bool.eq_false_iff.mpr stopped, Bool.false_or, split]
    by_cases among : session.restsIn pauses stages
    · rw [among, Bool.true_or, if_pos rfl, appended, if_pos among]
    rw [Bool.eq_false_iff.mpr among, Bool.false_or]
    rw [if_neg among] at appended
    by_cases rests : session.restsIn pauses [stage]
    · rw [if_pos rests, appended]
      exact runStages_of_rests around pauses stage [] (rest.trans rests) before.2
    rw [if_neg rests]
    have performed : after = advance around stage before.1 before.2 := by
      rw [appended]
      exact runStages_cons around pauses stage [] stopped (by rwa [rest]) before.2
    rcases outcome : stage.perform around before.1 before.2 with ⟨failure | next, left⟩
    · exact performed.trans (advance_of_error outcome)
    · have succeeded : (stage.perform around before.1 before.2).1 = .ok next := by rw [outcome]
      exact ⟨performed.trans (advance_of_ok outcome),
        (Stage.turns_of_perform succeeded).writesOnly⟩
  · intro stopped
    exact runStages_append_of_stopped around pauses stages later session world
      (before.1.isStopped_iff.mpr stopped)

end MigrationGuard
