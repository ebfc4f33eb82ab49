/-
This file shows that stages end alike in worlds that are alike, for two sessions
that differ in times only. Where the workspace after the migration is may differ
too, but for the stage that looks there. So whole runs end alike. Sessions are
compared by what is left of them without times and without that workspace, and
each stage is followed through both worlds at once, call by call: what is taken of
each answer is the same, and the findings that are made of it are the same up to
times. The risk is judged without times, and comparing two runs takes nothing from
how long tests took. A run of stages is then compared stage by stage; behind the
gate the workspace has to be the same, as the validation looks there.
-/

import MigrationGuard.Proofs.Session.Agreement

namespace MigrationGuard

variable {World : Type}

/-! ### Sessions that differ in times -/

/-- The session without times and without the place of the workspace after the migration. -/
def Session.bare (session : Session) : Session :=
  { session.untimed with migratedPath := none }

/-- Sessions that are bare alike and look at the same place are alike up to times. -/
theorem Session.untimed_eq_of_bare {left right : Session} (same : left.bare = right.bare)
    (path : left.migratedPath = right.migratedPath) : left.untimed = right.untimed := by
  have put : ∀ session : Session,
      { session.bare with migratedPath := session.migratedPath } = session.untimed := fun _ => rfl
  rw [← put left, ← put right, same, path]

/-- Sessions that are bare alike differ in the times of four findings, and in the place of the
workspace after the migration. -/
theorem Session.eq_of_bare {left right : Session} (same : left.bare = right.bare) :
    ∃ path baseline assessment run validation,
      right = { left with
        migratedPath := path
        baselineRun := baseline
        assessment := assessment
        migratedRun := run
        validation := validation } ∧
      left.baselineRun.map TestRun.untimed = baseline.map TestRun.untimed ∧
      left.assessment.map RiskAssessment.untimed = assessment.map RiskAssessment.untimed ∧
      left.migratedRun.map TestRun.untimed = run.map TestRun.untimed ∧
      left.validation.map ValidationResult.untimed = validation.map ValidationResult.untimed := by
  refine ⟨right.migratedPath, right.baselineRun, right.assessment, right.migratedRun,
    right.validation, ?_, congrArg Session.baselineRun same, congrArg Session.assessment same,
    congrArg Session.migratedRun same, congrArg Session.validation same⟩
  cases left
  cases right
  simp_all [Session.bare, Session.untimed]

/-- Neither times nor the workspace after the migration count for the risk, which is only dated. -/
theorem Session.judge_eq_of_bare {left right : Session} (same : left.bare = right.bare)
    (window : Nat) (known : Recollection) (first second : String) :
    (left.judge window known first).untimed = (right.judge window known second).untimed := by
  obtain ⟨path, baseline, assessment, run, validation, rfl, -⟩ := Session.eq_of_bare same
  rfl

/-- Where parts of two answers are the same, so are the parts of what stands for no answer. -/
theorem map_getD_eq {Answer Part : Type} {part : Answer → Part} {one other : Option Answer}
    (same : one.map part = other.map part) (usual : Answer) :
    part (one.getD usual) = part (other.getD usual) := by
  rw [← Option.getD_map part usual one, same, Option.getD_map]

/-- Where two things without times are alike, either both are there or none. -/
theorem alike_cases {Timed Untimed : Type} {forget : Timed → Untimed} {left right : Option Timed}
    (same : left.map forget = right.map forget) :
    (left = none ∧ right = none) ∨
      ∃ one other, left = some one ∧ right = some other ∧ forget one = forget other := by
  cases left <;> cases right <;> simp_all

/-! ### Memory -/

section
variable {around : Surroundings (StateM World)} {like : World → World → Prop}
  {workspaces : List String} (steady : around.Steady like workspaces)
include steady

/-- Memory that answers in the same way gives the same answer or none. -/
theorem agrees_askMemory {Answer Taken Kept : Type} {usual : Answer}
    {ask : SessionMemory (StateM World) → StateM World (Except MemoryFailure Answer)}
    {taken : Except MemoryFailure Answer → Taken} {kept : Answer → Kept}
    (call : ∀ memory, MemoryCall memory (ask memory) taken)
    (enough : ∀ one other, taken one = taken other →
      kept (one.toOption.getD usual) = kept (other.toOption.getD usual)) :
    Agrees like kept (around.askMemory usual ask) (around.askMemory usual ask) := by
  unfold Surroundings.askMemory
  split
  · exact Agrees.pure rfl
  · rename_i memory known
    exact Agrees.bind (steady.memory memory known (call memory)) fun one other answers =>
      Agrees.pure (enough one other answers)

theorem agrees_tellMemory {Answer : Type}
    {tell : SessionMemory (StateM World) → StateM World (Except MemoryFailure Answer)}
    (call : ∀ memory, MemoryCall memory (tell memory) Except.toBool) :
    Agrees like (fun _ => ()) (around.tellMemory tell) (around.tellMemory tell) := by
  unfold Surroundings.tellMemory
  split
  · exact Agrees.pure rfl
  · rename_i memory known
    exact Agrees.bind (steady.memory memory known (call memory)) fun _ _ _ => Agrees.pure rfl

theorem agrees_recollect (changes : List PatchChange) :
    Agrees like id (recollect around changes) (recollect around changes) := by
  refine Agrees.bind_same (agrees_askMemory steady (fun memory => .warnings changes)
    fun one other same => congrArg (Option.getD · []) same) fun warnings => ?_
  refine Agrees.bind (agrees_askMemory steady (fun memory => .pastRuns _)
    fun one other same => map_getD_eq same []) fun runs others verdicts => ?_
  refine Agrees.bind (agrees_askMemory steady (fun memory => .knownDrifts)
    fun one other same => map_getD_eq same []) fun drifts known count => Agrees.pure ?_
  have read : ∀ runs : List RunRecord, runs.map RunRecord.readVerdict? =
      (runs.map RunRecord.verdict).map fun verdict =>
        verdict.bind fun word => (Verdict.read word).toOption := fun runs => by
    rw [List.map_map]
    rfl
  rw [read, read, verdicts, count]

theorem agrees_recordDrifts {left right : Session} (suite : left.suite = right.suite)
    (drifts : List DriftItem) :
    Agrees like (fun _ => ()) (recordDrifts around left drifts)
      (recordDrifts around right drifts) := by
  induction drifts with
  | nil => exact Agrees.pure rfl
  | cons drift drifts inductionHypothesis =>
    have request : left.driftRequest drift = right.driftRequest drift := by
      rw [Session.driftRequest, Session.driftRequest, suite]
    rw [recordDrifts, recordDrifts, request]
    exact Agrees.bind (agrees_tellMemory steady fun memory => .recordDrift _)
      fun _ _ _ => inductionHypothesis

/-! ### Stages in front of the gate -/

variable {left right : Session} (same : left.bare = right.bare)
include same

theorem agrees_ingestWorkspace (among : left.repository ∈ workspaces) :
    Agrees like (Except.map Session.bare) (ingestWorkspace around left)
      (ingestWorkspace around right) := by
  obtain ⟨path, baseline, assessment, run, validation, rfl, runs, risks, others, compared⟩ :=
    Session.eq_of_bare same
  refine Agrees.bind (steady.workspace _ among .find) fun one other found => Agrees.pure ?_
  have sources := congrFun (congrArg Prod.snd found) none
  dsimp only at sources ⊢
  rw [sources]
  cases (around.miner left.repository).sources other none with
  | error failure => rfl
  | ok files => simp [Except.map, Session.bare, Session.untimed, runs, risks, others, compared]

theorem agrees_mineWorkflow (among : left.repository ∈ workspaces) :
    Agrees like (Except.map Session.bare) (mineWorkflow around left)
      (mineWorkflow around right) := by
  obtain ⟨path, baseline, assessment, run, validation, rfl, runs, risks, others, compared⟩ :=
    Session.eq_of_bare same
  refine Agrees.bind (steady.workspace _ among .find) fun one other found => ?_
  have sources := congrFun (congrArg Prod.snd found) left.targetModule
  dsimp only at sources ⊢
  rw [Miner.mine, Miner.mine, sources]
  cases (around.miner left.repository).sources other left.targetModule with
  | error failure => exact Agrees.pure rfl
  | ok files =>
    refine Agrees.bind_same (agrees_askMemory steady (fun memory => .recordFunctions _)
      fun one other same => congrArg (Option.getD · _) same) fun changed => Agrees.pure ?_
    simp [Except.map, Session.bare, Session.untimed, runs, risks, others, compared]

theorem agrees_findDeadCode (among : left.repository ∈ workspaces) :
    Agrees like (Except.map Session.bare) (findDeadCode around left)
      (findDeadCode around right) := by
  obtain ⟨path, baseline, assessment, run, validation, rfl, runs, risks, others, compared⟩ :=
    Session.eq_of_bare same
  unfold findDeadCode
  cases left.graph with
  | none => exact Agrees.pure rfl
  | some graph =>
    refine Agrees.bind (steady.workspace _ among .find) fun one other found => Agrees.pure ?_
    have sources := congrFun (congrArg Prod.snd found) left.targetModule
    dsimp only at sources ⊢
    rw [sources]
    cases (around.miner left.repository).sources other left.targetModule with
    | error failure => rfl
    | ok files => simp [Except.map, Session.bare, Session.untimed, runs, risks, others, compared]

theorem agrees_takeBaseline (among : left.repository ∈ workspaces) :
    Agrees like (Except.map Session.bare) (takeBaseline around left)
      (takeBaseline around right) := by
  obtain ⟨path, baseline, assessment, run, validation, rfl, runs, risks, others, compared⟩ :=
    Session.eq_of_bare same
  unfold takeBaseline
  cases left.suite with
  | none => exact Agrees.pure rfl
  | some suite =>
    refine Agrees.bind (agrees_executeSuite steady among suite .baseline)
      fun _ _ outcome => ?_
    obtain ⟨failure, rfl, rfl⟩ | ⟨first, second, rfl, rfl, taken⟩ := map_cases outcome
    · exact Agrees.pure rfl
    · refine Agrees.pure ?_
      simp [Except.map, Session.bare, Session.untimed, taken, risks, others, compared]

/-! ### The gate -/

theorem agrees_sendNotice {assessment other : RiskAssessment Float}
    (alike : assessment.untimed = other.untimed) (blocked : Bool) :
    Agrees like id (sendNotice around left assessment blocked)
      (sendNotice around right other blocked) := by
  obtain ⟨path, baseline, _, run, validation, rfl, -⟩ := Session.eq_of_bare same
  have dated : other = { assessment with computedAt := other.computedAt } := by
    cases assessment; cases other; simp_all [RiskAssessment.untimed]
  rw [dated]
  unfold sendNotice
  split
  · rename_i notify known
    split
    · exact steady.notify notify known _ _
    · exact Agrees.pure rfl
  · exact Agrees.pure rfl

theorem agrees_passGate :
    Agrees like (Except.map Session.bare) (passGate around left) (passGate around right) := by
  have changes : left.judgedChanges = right.judgedChanges := by
    obtain ⟨path, baseline, _, run, validation, rfl, -⟩ := Session.eq_of_bare same
    rfl
  have request : ∀ one other : RiskAssessment Float, one.untimed = other.untimed →
      left.blockedRequest one = right.blockedRequest other := fun one other alike => by
    rw [Session.blockedRequest, Session.blockedRequest, changes,
      show one.score = other.score from (congrArg RiskAssessment.score alike :)]
    obtain ⟨path, baseline, _, run, validation, rfl, -⟩ := Session.eq_of_bare same
    rfl
  unfold passGate
  obtain ⟨none, gone⟩ | ⟨first, second, taken, again, before⟩ :=
    alike_cases (congrArg Session.baselineRun same)
  · rw [none, gone]
    exact Agrees.pure rfl
  rw [taken, again, changes]
  refine Agrees.bind_same (agrees_recollect steady _) fun known => ?_
  refine Agrees.bind steady.clock fun time later _ => ?_
  dsimp only
  have judged := Session.judge_eq_of_bare same around.settings.risk.historyWindow known
    (Calendar.momentText time) (Calendar.momentText later)
  generalize left.judge _ _ _ = one at judged ⊢
  generalize right.judge _ _ _ = other at judged ⊢
  have score : one.score = other.score := (congrArg RiskAssessment.score judged :)
  rw [score]
  refine Agrees.bind_same (agrees_sendNotice steady same judged _) fun _ => ?_
  obtain ⟨path, baseline, assessment, run, validation, rfl, -, -, others, compared⟩ :=
    Session.eq_of_bare same
  split
  · rw [request one other judged]
    refine Agrees.bind (agrees_tellMemory steady fun memory => .recordRun _)
      fun _ _ _ => Agrees.pure ?_
    simp [Except.map, Session.bare, Session.untimed, before, judged, others, compared]
  · refine Agrees.pure ?_
    simp [Except.map, Session.bare, Session.untimed, before, judged, others, compared]

/-! ### Stages behind the gate -/

/-- The validation looks at the workspace after the migration, so this has to be the same for both.
-/
theorem agrees_validateMigration (path : left.migratedPath = right.migratedPath)
    (among : ∀ workspace ∈ left.migratedPath, workspace ∈ workspaces) :
    Agrees like (Except.map Session.bare) (validateMigration around left)
      (validateMigration around right) := by
  obtain ⟨_, baseline, assessment, run, validation, rfl, runs, risks, others, compared⟩ :=
    Session.eq_of_bare same
  obtain rfl : left.migratedPath = _ := path
  unfold validateMigration
  dsimp only
  cases migrated : left.migratedPath with
  | none => exact Agrees.pure rfl
  | some workspace =>
  cases left.suite with
  | none => exact Agrees.pure rfl
  | some suite =>
  obtain ⟨none, rfl⟩ | ⟨before, again, taken, rfl, alike⟩ := alike_cases runs
  · rw [none]
    exact Agrees.pure rfl
  rw [taken]
  refine Agrees.bind (agrees_executeSuite steady (among workspace migrated) suite .migrated)
    fun _ _ outcome => ?_
  obtain ⟨failure, rfl, rfl⟩ | ⟨first, second, rfl, rfl, found⟩ := map_cases outcome
  · exact Agrees.pure rfl
  have drifts : (classifyDrift before first : ValidationResult Float).untimed =
      (classifyDrift again second).untimed := by
    rw [← classifyDrift_untimed, alike, found, classifyDrift_untimed]
  refine Agrees.pure ?_
  simp [Except.map, Session.bare, Session.untimed, risks, found, drifts, alike]

theorem agrees_giveVerdict :
    Agrees like (Except.map Session.bare) (giveVerdict around left) (giveVerdict around right) := by
  obtain ⟨path, baseline, assessment, run, validation, rfl, runs, risks, others, compared⟩ :=
    Session.eq_of_bare same
  unfold giveVerdict
  dsimp only
  obtain ⟨none, rfl⟩ | ⟨first, second, known, rfl, alike⟩ := alike_cases compared
  · rw [none]
    exact Agrees.pure rfl
  rw [known]
  dsimp only
  have report : confidenceReport first (left.suite.map TestSuite.coveragePct) left.assessment =
      confidenceReport second (left.suite.map TestSuite.coveragePct) assessment := by
    rw [← confidenceReport_untimed, alike, risks, confidenceReport_untimed]
  have drifts : first.drifts = second.drifts := (congrArg ValidationResult.drifts alike :)
  rw [report, drifts]
  refine Agrees.bind (agrees_tellMemory steady fun memory => .recordRun _) fun _ _ _ => ?_
  refine Agrees.bind (agrees_recordDrifts steady (by rfl) _) fun _ _ _ => Agrees.pure ?_
  simp [Except.map, Session.bare, Session.untimed, runs, risks, others, alike]

/-! ### Runs of stages -/

theorem agrees_perform (stage : Stage) (among : left.repository ∈ workspaces)
    (reached : stage = .validate → left.migratedPath = right.migratedPath ∧
      ∀ workspace ∈ left.migratedPath, workspace ∈ workspaces) :
    Agrees like (Except.map Session.bare) (stage.perform around left)
      (stage.perform around right) := by
  cases stage with
  | ingest => exact agrees_ingestWorkspace steady same among
  | mine => exact agrees_mineWorkflow steady same among
  | deadCode => exact agrees_findDeadCode steady same among
  | baseline => exact agrees_takeBaseline steady same among
  | riskGate => exact agrees_passGate steady same
  | validate => exact agrees_validateMigration steady same (reached rfl).1 (reached rfl).2
  | report => exact agrees_giveVerdict steady same

theorem agrees_advance (stage : Stage) (among : left.repository ∈ workspaces)
    (reached : stage = .validate → left.migratedPath = right.migratedPath ∧
      ∀ workspace ∈ left.migratedPath, workspace ∈ workspaces) :
    Agrees like Session.bare (advance around stage left) (advance around stage right) := by
  refine Agrees.bind (agrees_perform steady same stage among reached) fun _ _ ends => ?_
  obtain ⟨failure, rfl, rfl⟩ | ⟨after, other, rfl, rfl, alike⟩ := map_cases ends
  · exact Agrees.pure (congrArg (Session.failedAt · stage failure.message) same)
  · exact Agrees.pure alike

omit steady same in
theorem Session.isStopped_eq_of_bare (same : left.bare = right.bare) :
    left.isStopped = right.isStopped := by
  have error : left.error = right.error := (congrArg Session.error same :)
  have progress : left.progress = right.progress := (congrArg Session.progress same :)
  rw [Session.isStopped, Session.isStopped, error, progress]

/-- Runs of stages that do not rest end alike, whether or not they would pause. -/
theorem agrees_runStages {pauses later : Bool} {stages : List Stage}
    (among : left.repository ∈ workspaces)
    (reached : .validate ∈ stages → left.migratedPath = right.migratedPath ∧
      ∀ workspace ∈ left.migratedPath, workspace ∈ workspaces)
    (goes : ¬ left.restsIn pauses stages) (goesToo : ¬ right.restsIn later stages) :
    Agrees like Session.bare (runStages around pauses stages left)
      (runStages around later stages right) := by
  induction stages generalizing left right with
  | nil => exact Agrees.pure same
  | cons stage stages inductionHypothesis =>
    intro first second alike
    by_cases stopped : left.isStopped
    · have stoppedToo : right.isStopped := Session.isStopped_eq_of_bare same ▸ stopped
      rw [runStages_of_stopped around pauses _ stopped,
        runStages_of_stopped around later _ stoppedToo]
      exact ⟨same, alike⟩
    have stoppedToo : ¬ right.isStopped := Session.isStopped_eq_of_bare same ▸ stopped
    rw [Session.restsIn_cons, Bool.or_eq_true, not_or] at goes goesToo
    rw [runStages_cons around pauses stage stages stopped goes.1,
      runStages_cons around later stage stages stoppedToo goesToo.1]
    have advanced := agrees_advance steady same stage among
      (fun validates => reached (validates ▸ List.mem_cons_self)) first second alike
    refine inductionHypothesis advanced.1 ?_ ?_ ?_ ?_ _ _ advanced.2
    · rwa [advance_repository]
    · rw [advance_migratedPath, advance_migratedPath]
      exact fun validates => reached (List.mem_cons_of_mem stage validates)
    · rw [restsIn_advance]
      exact goes.2
    · rw [restsIn_advance]
      exact goesToo.2

end

end MigrationGuard
