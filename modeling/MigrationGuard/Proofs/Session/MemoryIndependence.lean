/-
This file shows that no stage needs memory. Files and the runner answer the calls
of a session from a part of the world that memory does not touch. Then a stage
ends in the same way with any two memories, absent or failing ones included: it
fails for the same reason, or it succeeds with the same findings but for the few
that memory tells. A memory that always fails is as good as none. What memory
tells is which functions changed, which is noted when the workflow is mined, and
what the risk is judged with; these fields are taken out of the sessions before
they are compared. With a memory that always fails nothing need be taken out but
the time at which the risk was judged, as every question to it gives the usual
answer. The sample has one memory that closes the gate and one that cannot be
reached.
-/

import MigrationGuard.Proofs.Session.Findings
import MigrationGuard.Proofs.Session.StageAgreement

namespace MigrationGuard

variable {World Seen : Type}

/-! ### Memory apart from the workspaces -/

/-- What files and the runner look at is seen of the world. They answer the calls of a session from
that alone, and notices and the clock leave it as it is. -/
structure Surroundings.LooksAt (around : Surroundings (StateM World)) (seen : World → Seen)
    (workspaces : List String) : Prop where
  /-- The calls in the workspaces. -/
  workspace : ∀ workspace ∈ workspaces, ∀ {Answer Taken : Type} {action : StateM World Answer}
    {taken : Answer → Taken}, WorkspaceCall around workspace action taken →
      Agrees (fun first second => seen first = seen second) taken action action
  /-- The runner also tells the same time. -/
  runner : ∀ call, call.workspace ∈ workspaces →
    Agrees (fun first second => seen first = seen second) id (around.runner call)
      (around.runner call)
  /-- Notices. -/
  notify : ∀ notify, around.notify = some notify → ∀ notice, Leaves seen (notify notice)
  /-- Reading the clock, whatever it shows. -/
  clock : Leaves seen around.clock

/-- Whatever memory answers, it leaves alone what files and the runner look at. -/
def SessionMemory.Apart (memory : SessionMemory (StateM World)) (seen : World → Seen) : Prop :=
  ∀ {Answer Taken : Type} {action : StateM World Answer} {taken : Answer → Taken},
    MemoryCall memory action taken → Leaves seen action

/-- Every call of a session to memory fails, for whatever reason. -/
structure SessionMemory.AlwaysFails (memory : SessionMemory (StateM World)) : Prop where
  /-- Functions are not recorded. -/
  recordFunctions : ∀ nodes,
    Ensures (memory.recordFunctions nodes) fun answer => answer.toBool = false
  /-- There are no warnings. -/
  warnings : ∀ changes, Ensures (memory.warnings changes) fun answer => answer.toBool = false
  /-- Past runs are not known. -/
  pastRuns : ∀ limit, Ensures (memory.pastRuns limit) fun answer => answer.toBool = false
  /-- Drifts are not known. -/
  knownDrifts : Ensures memory.knownDrifts fun answer => answer.toBool = false
  /-- Runs are not recorded. -/
  recordRun : ∀ request, Ensures (memory.recordRun request) fun answer => answer.toBool = false
  /-- Drifts are not recorded. -/
  recordDrift : ∀ request,
    Ensures (memory.recordDrift request) fun answer => answer.toBool = false

/-! ### What memory tells -/

/-- The session after a stage without what memory tells: which functions changed when the workflow
was mined, and the risk and what the gate made of it. -/
def Stage.withoutMemory (stage : Stage) (session : Session) : Session :=
  match stage with
  | .mine => { session with changedFunctions := [] }
  | .riskGate => { session with
      assessment := none
      progress := if session.progress = .riskBlocked then .riskAnalyzed else session.progress }
  | _ => session

/-- The session without the time at which the risk was judged, which memory may delay. -/
def Session.undated (session : Session) : Session :=
  { session with assessment := session.assessment.map RiskAssessment.untimed }

/-- The session as it passes the gate with what memory tells, at a time. -/
def Session.gated (session : Session) (risk : RiskSettings) (known : Recollection) (time : Int) :
    Session :=
  let assessment := session.judge risk.historyWindow known (Calendar.momentText time)
  { session with
    assessment := some assessment
    progress := if gateDecision assessment.score risk.blockThreshold == .block then .riskBlocked
      else .riskAnalyzed }

/-! ### Asking and telling -/

section
variable {around : Surroundings (StateM World)} {seen : World → Seen}
  (apart : ∀ memory, around.memory = some memory → memory.Apart seen)
include apart

theorem leaves_askMemory {Answer Taken : Type} {usual : Answer}
    {ask : SessionMemory (StateM World) → StateM World (Except MemoryFailure Answer)}
    {taken : Except MemoryFailure Answer → Taken}
    (call : ∀ memory, MemoryCall memory (ask memory) taken) :
    Leaves seen (around.askMemory usual ask) := by
  unfold Surroundings.askMemory
  split
  · exact Leaves.pure _
  · rename_i memory known
    exact Leaves.bind (apart memory known (call memory)) fun _ => Leaves.pure _

theorem leaves_tellMemory {Answer Taken : Type}
    {tell : SessionMemory (StateM World) → StateM World (Except MemoryFailure Answer)}
    {taken : Except MemoryFailure Answer → Taken}
    (call : ∀ memory, MemoryCall memory (tell memory) taken) :
    Leaves seen (around.tellMemory tell) := by
  unfold Surroundings.tellMemory
  split
  · exact Leaves.pure _
  · rename_i memory known
    exact Leaves.bind (apart memory known (call memory)) fun _ => Leaves.pure _

theorem leaves_recollect (changes : List PatchChange) : Leaves seen (recollect around changes) :=
  Leaves.bind (leaves_askMemory apart fun _ => .warnings _) fun _ =>
    Leaves.bind (leaves_askMemory apart fun _ => .pastRuns _) fun _ =>
      Leaves.bind (leaves_askMemory apart fun _ => .knownDrifts) fun _ => Leaves.pure _

theorem leaves_recordDrifts (session : Session) (drifts : List DriftItem) :
    Leaves seen (recordDrifts around session drifts) := by
  induction drifts with
  | nil => exact Leaves.pure _
  | cons drift drifts inductionHypothesis =>
    exact Leaves.bind (leaves_tellMemory apart fun _ => .recordDrift _) fun _ => inductionHypothesis

end

/-- Memory that fails gives the usual answer, and so does memory that is not there. -/
theorem askMemory_of_fails {around : Surroundings (StateM World)} {Answer : Type} (usual : Answer)
    (ask : SessionMemory (StateM World) → StateM World (Except MemoryFailure Answer))
    (fails : ∀ memory, around.memory = some memory →
      Ensures (ask memory) fun answer => answer.toBool = false) :
    Ensures (around.askMemory usual ask) fun answer => answer = usual := by
  unfold Surroundings.askMemory
  split
  · exact Ensures.pure rfl
  · rename_i memory known
    intro world
    have failed := fails memory known world
    rw [bind_apply, pure_apply]
    cases answered : (ask memory world).1 with
    | error failure => rfl
    | ok answer =>
      rw [answered] at failed
      exact nomatch failed

/-- Memory that always fails tells nothing about a change: no warnings, no verdicts and no drifts.
-/
theorem recollect_of_fails {around : Surroundings (StateM World)}
    (fails : ∀ memory, around.memory = some memory → memory.AlwaysFails)
    (changes : List PatchChange) :
    Ensures (recollect around changes) fun known => known = ⟨[], [], 0⟩ := by
  intro world
  have warnings := askMemory_of_fails [] (fun memory => memory.warnings changes)
    fun memory known => (fails memory known).warnings _
  have runs := askMemory_of_fails []
    (fun memory => memory.pastRuns (min around.settings.risk.historyWindow pastRunLimit))
    fun memory known => (fails memory known).pastRuns _
  have drifts := askMemory_of_fails [] SessionMemory.knownDrifts
    fun memory known => (fails memory known).knownDrifts
  unfold recollect
  rw [bind_apply, bind_apply, bind_apply, pure_apply, warnings, runs, drifts]
  rfl

/-! ### Suites -/

section
variable {around : Surroundings (StateM World)} {seen : World → Seen} {workspaces : List String}
  (looks : around.LooksAt seen workspaces)
include looks

/-- Without memory and notices the surroundings are steady, as all that is left looks at one part of
the world. -/
theorem Surroundings.LooksAt.steady :
    ({ around with memory := none, notify := none } : Surroundings (StateM World)).Steady
      (fun first second => seen first = seen second) workspaces where
  workspace workspace among _ _ _ _ call := looks.workspace workspace among call.of_without
  memory _ known := nomatch known
  notify _ known := nomatch known
  clock := Agrees.of_leaves looks.clock looks.clock fun _ _ => rfl

/-- A suite gives the same results in worlds that look the same, which includes how long they
take. -/
theorem Surroundings.LooksAt.executeSuite {workspace : String} (among : workspace ∈ workspaces)
    (suite : TestSuite) (role : RunRole) :
    Agrees (fun first second => seen first = seen second) id
      (executeSuite around.files around.runner around.settings.harness workspace suite role)
      (executeSuite around.files around.runner around.settings.harness workspace suite role) := by
  refine agrees_executeSuite_of_runTests looks.steady among suite fun program arguments => ?_
  refine Agrees.bind_same (looks.runner _ among) fun outcome => ?_
  cases outcome with
  | finished output elapsedMs =>
    exact Agrees.bind_same (agrees_readReport looks.steady among) fun _ => Agrees.pure rfl
  | failed failure => exact Agrees.pure rfl
  | timedOut => exact Agrees.pure rfl

end

/-! ### Stages that memory takes no part in -/

section
variable {around : Surroundings (StateM World)} {seen : World → Seen} {session : Session}
  (looks : around.LooksAt seen (session.repository :: session.migratedPath.toList))
include looks

theorem Surroundings.LooksAt.ingestWorkspace :
    Agrees (fun first second => seen first = seen second) id
      (ingestWorkspace around session) (ingestWorkspace around session) := by
  refine Agrees.bind (looks.workspace _ List.mem_cons_self .find) fun found again same =>
    Agrees.pure ?_
  have sources := congrFun (congrArg Prod.snd same) none
  dsimp only at sources
  rw [sources]

theorem Surroundings.LooksAt.findDeadCode :
    Agrees (fun first second => seen first = seen second) id
      (findDeadCode around session) (findDeadCode around session) := by
  unfold MigrationGuard.findDeadCode
  cases session.graph with
  | none => exact Agrees.pure rfl
  | some graph =>
    refine Agrees.bind (looks.workspace _ List.mem_cons_self .find) fun found again same =>
      Agrees.pure ?_
    have sources := congrFun (congrArg Prod.snd same) session.targetModule
    dsimp only at sources
    rw [sources]

theorem Surroundings.LooksAt.takeBaseline :
    Agrees (fun first second => seen first = seen second) id
      (takeBaseline around session) (takeBaseline around session) := by
  unfold MigrationGuard.takeBaseline
  cases session.suite with
  | none => exact Agrees.pure rfl
  | some suite =>
    refine Agrees.bind_same (looks.executeSuite List.mem_cons_self suite .baseline) fun ran => ?_
    cases ran <;> exact Agrees.pure rfl

theorem Surroundings.LooksAt.validateMigration :
    Agrees (fun first second => seen first = seen second) id
      (validateMigration around session) (validateMigration around session) := by
  unfold MigrationGuard.validateMigration
  cases migrated : session.migratedPath with
  | none => exact Agrees.pure rfl
  | some path =>
  cases session.suite with
  | none => exact Agrees.pure rfl
  | some suite =>
  cases session.baselineRun with
  | none => exact Agrees.pure rfl
  | some baseline =>
    have among : path ∈ session.repository :: session.migratedPath.toList := by simp [migrated]
    refine Agrees.bind_same (looks.executeSuite among suite .migrated) fun ran => ?_
    cases ran <;> exact Agrees.pure rfl

/-! ### Mining -/

/-- What mining finds depends on memory as far as the answer about the functions does. -/
theorem mineWorkflow_independent {one other : Option (SessionMemory (StateM World))}
    {Kept Taken : Type} (kept : List ChangedFunction → Kept)
    {taken : Except StageFailure Session → Taken}
    (answers : ∀ nodes, Agrees (fun first second => seen first = seen second) kept
      ({ around with memory := one }.askMemory session.changedFunctions fun memory =>
        memory.recordFunctions nodes)
      ({ around with memory := other }.askMemory session.changedFunctions fun memory =>
        memory.recordFunctions nodes))
    (enough : ∀ graph changed others, kept changed = kept others →
      taken (.ok { session with graph, changedFunctions := changed, progress := .mined }) =
        taken (.ok { session with graph, changedFunctions := others, progress := .mined })) :
    Agrees (fun first second => seen first = seen second) taken
      (mineWorkflow { around with memory := one } session)
      (mineWorkflow { around with memory := other } session) := by
  refine Agrees.bind (looks.workspace _ List.mem_cons_self .find) fun found again same => ?_
  have sources := congrFun (congrArg Prod.snd same) session.targetModule
  dsimp only [Surroundings.miner] at sources ⊢
  rw [Miner.mine, Miner.mine, sources]
  split
  · exact Agrees.pure rfl
  · rename_i outcome mined
    exact Agrees.bind (answers _) fun changed others known => Agrees.pure (enough _ _ _ known)

/-! ### The gate and the verdict -/

omit looks in
/-- Where there is a run before the migration, the gate succeeds with what memory told. -/
theorem passGate_of_taken (around : Surroundings (StateM World)) {run : TestRun}
    (taken : session.baselineRun = some run) (world : World) :
    ∃ time, (passGate around session world).1 = .ok (session.gated around.settings.risk
      (recollect around session.judgedChanges world).1 time) := by
  unfold passGate
  rw [taken]
  refine ⟨(around.clock (recollect around session.judgedChanges world).2).1, ?_⟩
  dsimp only
  rw [bind_apply, bind_apply, bind_apply]
  unfold Session.gated
  dsimp only
  rw [taken]
  split <;> rfl

omit looks in
/-- The gate ends alike with two memories as far as what they tell makes no difference. -/
theorem passGate_independent {one other : Option (SessionMemory (StateM World))}
    {Taken : Type} {taken : Session → Taken} (first second : World)
    (alike : ∀ time later,
      taken (session.gated around.settings.risk
        (recollect { around with memory := one } session.judgedChanges first).1 time) =
      taken (session.gated around.settings.risk
        (recollect { around with memory := other } session.judgedChanges second).1 later)) :
    Except.map taken (passGate { around with memory := one } session first).1 =
      Except.map taken (passGate { around with memory := other } session second).1 := by
  cases known : session.baselineRun with
  | none =>
    rw [passGate, passGate, known]
    rfl
  | some run =>
    obtain ⟨time, ends⟩ := passGate_of_taken { around with memory := one } known first
    obtain ⟨later, endsToo⟩ := passGate_of_taken { around with memory := other } known second
    rw [ends, endsToo]
    exact congrArg Except.ok (alike time later)

theorem leaves_passGate {memory : Option (SessionMemory (StateM World))}
    (apart : ∀ kept, memory = some kept → kept.Apart seen) :
    Leaves seen (passGate { around with memory } session) := by
  unfold passGate
  split
  · exact Leaves.pure _
  refine Leaves.bind (leaves_recollect apart _) fun known => Leaves.bind looks.clock fun time =>
    Leaves.bind ?_ fun _ => ?_
  · unfold sendNotice
    split
    · rename_i notify known
      split
      · exact looks.notify notify known _
      · exact Leaves.pure _
    · exact Leaves.pure _
  · split
    · exact Leaves.bind (leaves_tellMemory apart fun _ => .recordRun _) fun _ => Leaves.pure _
    · exact Leaves.pure _

omit looks in
/-- The verdict does not depend on memory, which is only told of it. -/
theorem giveVerdict_independent {one other : Option (SessionMemory (StateM World))}
    (first second : World) :
    (giveVerdict { around with memory := one } session first).1 =
      (giveVerdict { around with memory := other } session second).1 := by
  unfold giveVerdict
  cases session.validation <;> rfl

omit looks in
theorem leaves_giveVerdict (apart : ∀ memory, around.memory = some memory → memory.Apart seen) :
    Leaves seen (giveVerdict around session) := by
  unfold giveVerdict
  split
  · exact Leaves.pure _
  · exact Leaves.bind (leaves_tellMemory apart fun _ => .recordRun _) fun _ =>
      Leaves.bind (leaves_recordDrifts apart _ _) fun _ => Leaves.pure _

omit looks in
/-- Without what memory tells, a session that the gate judged has passed it. -/
theorem Session.withoutMemory_gated (risk : RiskSettings) (known : Recollection) (time : Int) :
    Stage.riskGate.withoutMemory (session.gated risk known time) =
      { session with assessment := none, progress := .riskAnalyzed } := by
  unfold Session.gated
  dsimp only
  split <;> rfl

omit looks in
/-- At another time the gate only dates the risk otherwise, as it is judged in the same way. -/
theorem Session.undated_gated (risk : RiskSettings) (known : Recollection) (time later : Int) :
    (session.gated risk known time).undated = (session.gated risk known later).undated := by
  have judged := Session.judge_eq_of_bare (rfl : session.bare = session.bare) risk.historyWindow
    known (Calendar.momentText time) (Calendar.momentText later)
  unfold Session.gated
  dsimp only
  generalize session.judge _ _ (Calendar.momentText time) = one at judged ⊢
  generalize session.judge _ _ (Calendar.momentText later) = other at judged ⊢
  have score : one.score = other.score := (congrArg RiskAssessment.score judged :)
  rw [score]
  simp [Session.undated, judged]

/-! ### All stages -/

/-- A stage ends alike with any two memories, but for what memory tells the session. -/
theorem Stage.agrees_perform_memories (stage : Stage)
    {one other : Option (SessionMemory (StateM World))}
    (apart : ∀ memory, one = some memory → memory.Apart seen)
    (apartToo : ∀ memory, other = some memory → memory.Apart seen) :
    Agrees (fun first second => seen first = seen second) (Except.map stage.withoutMemory)
      (stage.perform { around with memory := one } session)
      (stage.perform { around with memory := other } session) := by
  cases stage with
  | ingest => exact looks.ingestWorkspace.taking _
  | deadCode => exact looks.findDeadCode.taking _
  | baseline => exact looks.takeBaseline.taking _
  | validate => exact looks.validateMigration.taking _
  | mine =>
    refine mineWorkflow_independent looks (fun _ => ()) (fun nodes => ?_)
      fun _ _ _ _ => rfl
    exact Agrees.of_leaves (leaves_askMemory apart fun _ => .recordFunctions _)
      (leaves_askMemory apartToo fun _ => .recordFunctions _) fun _ _ => rfl
  | riskGate =>
    exact Agrees.of_leaves (leaves_passGate looks apart) (leaves_passGate looks apartToo)
      fun first second => passGate_independent first second fun _ _ =>
        (Session.withoutMemory_gated _ _ _).trans (Session.withoutMemory_gated _ _ _).symm
  | report =>
    exact Agrees.of_leaves (leaves_giveVerdict apart) (leaves_giveVerdict apartToo)
      fun first second => congrArg _ (giveVerdict_independent first second)

/-- A stage with a memory that always fails ends as it does without memory, though maybe later. -/
theorem Stage.agrees_perform_of_fails (stage : Stage)
    {memory : Option (SessionMemory (StateM World))}
    (apart : ∀ kept, memory = some kept → kept.Apart seen)
    (fails : ∀ kept, memory = some kept → kept.AlwaysFails) :
    Agrees (fun first second => seen first = seen second) (Except.map Session.undated)
      (stage.perform { around with memory } session)
      (stage.perform { around with memory := none } session) := by
  have absent : ∀ kept, (none : Option (SessionMemory (StateM World))) = some kept →
      kept.Apart seen := nofun
  cases stage with
  | ingest => exact looks.ingestWorkspace.taking _
  | deadCode => exact looks.findDeadCode.taking _
  | baseline => exact looks.takeBaseline.taking _
  | validate => exact looks.validateMigration.taking _
  | mine =>
    refine mineWorkflow_independent looks id (fun nodes => ?_)
      fun graph changed others same => by rw [show changed = others from same]
    exact Agrees.of_leaves (leaves_askMemory apart fun _ => .recordFunctions _)
      (leaves_askMemory absent fun _ => .recordFunctions _) fun first _ =>
        askMemory_of_fails _ _ (fun kept known => (fails kept known).recordFunctions nodes) first
  | riskGate =>
    refine Agrees.of_leaves (leaves_passGate looks apart) (leaves_passGate looks absent)
      fun first second => passGate_independent first second fun time later => ?_
    rw [recollect_of_fails fun kept known => fails kept known]
    exact Session.undated_gated _ _ _ _
  | report =>
    exact Agrees.of_leaves (leaves_giveVerdict apart) (leaves_giveVerdict absent)
      fun first second => congrArg _ (giveVerdict_independent first second)

/-- No stage needs memory. In worlds that look the same to the files and the runner, a stage fails
with any two memories for the same reason, or succeeds with the same findings but for what memory
tells. If one of them always fails, all is as without memory, but for the time. -/
theorem Stage.perform_independent (stage : Stage)
    (one other : Option (SessionMemory (StateM World)))
    (apart : ∀ memory, one = some memory ∨ other = some memory → memory.Apart seen) :
    Agrees (fun first second => seen first = seen second) (Except.map stage.withoutMemory)
        (stage.perform { around with memory := one } session)
        (stage.perform { around with memory := other } session) ∧
      ((∀ memory, one = some memory → memory.AlwaysFails) →
        Agrees (fun first second => seen first = seen second) (Except.map Session.undated)
          (stage.perform { around with memory := one } session)
          (stage.perform { around with memory := none } session)) :=
  ⟨stage.agrees_perform_memories looks (fun memory known => apart memory (.inl known))
      fun memory known => apart memory (.inr known),
    stage.agrees_perform_of_fails looks fun memory known => apart memory (.inl known)⟩

end

/-! ### Two memories in a quiet world -/

/-- A memory that cannot be reached, so every request to it fails. -/
def SessionMemory.unreachable : SessionMemory (StateM Unit) where
  recordFunctions _ := return .error .request
  warnings _ := return .error .request
  pastRuns _ := return .error .request
  knownDrifts := return .error .request
  recordRun _ := return .error .request
  recordDrift _ := return .error .request

/-- A memory of critical drifts and of runs that were blocked, to which nothing can be added. -/
def SessionMemory.alarmed : SessionMemory (StateM Unit) where
  recordFunctions _ := return .error .request
  warnings _ := return .ok (List.replicate 3 ⟨.memory, "pay", .critical, "Rounding changed", 1⟩)
  pastRuns _ := return .ok (List.replicate 5
    ⟨"run", "shop", "quiet", 0, some "BLOCKED", none, none, none, ""⟩)
  knownDrifts := return .ok []
  recordRun _ := return .error .request
  recordDrift _ := return .error .request

/-- One memory closes the gate and the other one cannot be reached, but they only tell in the risk
and in whether the gate is open. -/
theorem quietSession_gate_independent :
    let session := { quietSession with baselineRun := some (.ofResults .baseline []) }
    let gate := fun memory =>
      (Stage.riskGate.perform { quietSurroundings with memory } session ()).1
    quietSurroundings.LooksAt (fun _ => ()) (session.repository :: session.migratedPath.toList) ∧
      (gate (some .unreachable)).toOption.map Session.progress = some .riskAnalyzed ∧
      (gate (some .alarmed)).toOption.map Session.progress = some .riskBlocked ∧
      (gate (some .unreachable)).map Stage.riskGate.withoutMemory =
        (gate (some .alarmed)).map Stage.riskGate.withoutMemory ∧
      SessionMemory.unreachable.AlwaysFails ∧
      (gate (some .unreachable)).map Session.undated = (gate none).map Session.undated := by
  intro session gate
  have looks : quietSurroundings.LooksAt (fun _ => ())
      (session.repository :: session.migratedPath.toList) :=
    ⟨fun _ _ _ _ _ _ _ => fun _ _ _ => ⟨rfl, rfl⟩, fun _ _ _ _ _ => ⟨rfl, rfl⟩, nofun,
      fun _ => rfl⟩
  have fails : SessionMemory.unreachable.AlwaysFails :=
    ⟨fun _ _ => rfl, fun _ _ => rfl, fun _ _ => rfl, fun _ => rfl, fun _ _ => rfl, fun _ _ => rfl⟩
  have independent := Stage.riskGate.perform_independent looks (some .unreachable) (some .alarmed)
    fun _ _ _ _ _ _ _ _ => rfl
  refine ⟨looks, by decide +kernel, by decide +kernel, (independent.1 () () rfl).1, fails, ?_⟩
  refine (independent.2 ?_ () () rfl).1
  rintro _ ⟨⟩
  exact fails

end MigrationGuard
