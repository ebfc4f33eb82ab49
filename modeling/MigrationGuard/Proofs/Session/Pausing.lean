/-
This file compares a session that pauses behind the gate and is taken up again
with one that knows the workspace after the migration from the start. Up to the
gate both perform the same stages, and no stage there looks at that workspace;
behind the gate they hold the same findings. So both end alike, up to times. The
two calls of the paused session may find worlds that differ from those of the
single run, as long as worlds that are alike answer the calls of a session alike;
a clock that goes on and a store that notes other times are no difference. Where
there is memory, its records are compared too: a session that pauses has recorded
nothing that the single run would not have recorded by then, so both leave the
same records up to times.
-/

import MigrationGuard.Proofs.Session.MemoryAgreement
import MigrationGuard.Proofs.Session.StageAgreement

namespace MigrationGuard

variable {World : Type}

/-! ### Worlds that are alike -/

/-- The surroundings answer the calls of a session in the same way in all worlds that are alike,
and the records of memory are kept in a store that only memory touches. -/
structure Surroundings.Repeats (around : Surroundings (StateM World))
    (memory : Option (RepositoryMemory (StateM World))) (like : World → World → Prop)
    (store : World → Store) (workspaces : List String) : Prop where
  /-- Worlds that are both like a third one are alike. -/
  trans : ∀ {first second third}, like first second → like second third → like first third
  /-- Memory is that of a repository, if there is any. -/
  uses : around.memory = memory.map fun memory => .ofRepository memory around.clock
  /-- Files and the runner answer alike. -/
  workspace : ∀ workspace ∈ workspaces, ∀ {Answer Taken : Type} {action : StateM World Answer}
    {taken : Answer → Taken}, WorkspaceCall around workspace action taken →
      Agrees like taken action action ∧ Leaves (recordsIn store) action
  /-- Memory answers alike. -/
  answers : ∀ kept, memory = some kept → kept.Steady around.clock like
  /-- Memory keeps its records. -/
  keeps : ∀ kept, memory = some kept → kept.Keeps store
  /-- Notices are sent alike, whatever time they tell. -/
  notify : ∀ notify, around.notify = some notify → ∀ (notice : Notice) (other : String),
    Agrees like id (notify notice)
      (notify { notice with assessment := { notice.assessment with computedAt := other } }) ∧
    Leaves (recordsIn store) (notify notice)
  /-- The clock can be read alike, whatever it shows. -/
  clock : Agrees like (fun _ => ()) around.clock around.clock ∧
    Leaves (recordsIn store) around.clock

section
variable {around : Surroundings (StateM World)}
  {memory : Option (RepositoryMemory (StateM World))} {like : World → World → Prop}
  {store : World → Store} {workspaces : List String}
  (repeats : around.Repeats memory like store workspaces)
include repeats

/-- The calls agree about the records too, so sessions may be followed through both worlds at once.
-/
theorem Surroundings.Repeats.steady : around.Steady (withRecords like store) workspaces where
  workspace workspace among _ _ _ _ call :=
    have agrees := repeats.workspace workspace among call
    agrees.1.with_leaves agrees.2 agrees.2
  memory kept known _ _ _ _ call := by
    have uses := repeats.uses
    rw [known] at uses
    obtain ⟨repository, among, rfl⟩ := Option.map_eq_some_iff.mp uses.symm
    exact agrees_memoryCall (repeats.answers repository among) (repeats.keeps repository among)
      repeats.clock.1 repeats.clock.2 call
  notify notify known notice other :=
    (repeats.notify notify known notice other).1.with_leaves
      (repeats.notify notify known notice other).2 (repeats.notify notify known _ other).2
  clock := repeats.clock.1.with_leaves repeats.clock.2 repeats.clock.2

theorem Surroundings.Repeats.trans_records {first second third : World}
    (left : withRecords like store first second) (right : withRecords like store second third) :
    withRecords like store first third :=
  ⟨repeats.trans left.1 right.1, left.2.trans right.2⟩

end

/-! ### The two ways through the gate -/

/-- The stages up to the gate, none of which looks at the workspace after the migration. -/
def Stage.upToGate : List Stage := [.ingest, .mine, .deadCode, .baseline, .riskGate]

theorem Session.not_restsIn_upToGate (session : Session) (pauses : Bool) :
    ¬ session.restsIn pauses Stage.upToGate := by
  simp [Session.restsIn, Stage.upToGate]

theorem Session.not_restsIn_of_migrated {session : Session} {workspace : String}
    (migrated : session.migratedPath = some workspace) (pauses : Bool) (stages : List Stage) :
    ¬ session.restsIn pauses stages := by
  simp [Session.restsIn, migrated]

theorem Session.bare_reopened (session : Session) (migrated : Option String) :
    (session.reopened migrated).bare =
      { session.bare with error := none, progress := .riskAnalyzed } :=
  rfl

/-- A run passes the gate and then goes on behind it, if it got that far. -/
theorem runSession_eq (around : Surroundings (StateM World)) (session : Session) (world : World) :
    let gate := runStages around true Stage.upToGate session world
    runSession around session world = runStages around true Stage.behindGate gate.1 gate.2 := by
  have whole : Stage.inOrder = Stage.upToGate ++ Stage.behindGate := rfl
  rw [runSession, whole, runStages_append, if_neg (session.not_restsIn_upToGate true)]

/-- Without a workspace after the migration a run ends at the gate. -/
theorem runSession_of_not_migrated (around : Surroundings (StateM World)) {session : Session}
    (notMigrated : session.migratedPath = none) (world : World) :
    runSession around session world = runStages around true Stage.upToGate session world := by
  have rests : (runStages around true Stage.upToGate session world).1.restsIn true [.validate] := by
    simp [Session.restsIn, runStages_migratedPath, notMigrated]
  rw [runSession_eq]
  exact runStages_of_rests around true .validate _ rests _

/-- A session that holds an error has failed, so its progress tells that it holds none. -/
def Session.ErrorMeansFailed (session : Session) : Prop :=
  session.error.isSome → ∃ stage, session.progress = .failed stage

theorem advance_errorMeansFailed (around : Surroundings (StateM World)) (stage : Stage)
    {session : Session} (goes : ¬ session.isStopped) (world : World) :
    (advance around stage session world).1.ErrorMeansFailed := by
  rcases performed : stage.perform around session world with ⟨failure | after, left⟩
  · rw [advance_of_error performed]
    exact fun _ => ⟨stage, rfl⟩
  · have succeeded : (stage.perform around session world).1 = .ok after := by rw [performed]
    have same := (Stage.turns_of_perform succeeded).error
    rw [advance_of_ok performed]
    intro failed
    rw [same] at failed
    exact absurd (session.isStopped_iff.mpr (.inl failed)) goes

theorem runStages_errorMeansFailed (around : Surroundings (StateM World)) (pauses : Bool)
    (stages : List Stage) {session : Session} (means : session.ErrorMeansFailed) (world : World) :
    (runStages around pauses stages session world).1.ErrorMeansFailed := by
  induction stages generalizing session world with
  | nil => exact means
  | cons stage stages inductionHypothesis =>
    by_cases stopped : session.isStopped
    · rw [runStages_of_stopped around pauses _ stopped]
      exact means
    by_cases rests : session.restsIn pauses [stage]
    · rw [runStages_of_rests around pauses stage _ rests]
      exact means
    rw [runStages_cons around pauses stage stages stopped rests]
    exact inductionHypothesis (advance_errorMeansFailed around stage stopped world) _

/-- A session that stands behind the gate with its progress untouched holds no error. -/
theorem Session.ErrorMeansFailed.error_of_riskAnalyzed {session : Session}
    (means : session.ErrorMeansFailed) (passed : session.progress = .riskAnalyzed) :
    session.error = none := by
  cases held : session.error with
  | none => rfl
  | some reason =>
    obtain ⟨stage, failed⟩ := means (Option.isSome_of_eq_some held)
    rw [passed] at failed
    exact nomatch failed

/-- Taken up again in a world, the session ends like a run: with the same outcome up to times, and
in a world that is alike, the records of memory included. -/
def Session.EndsAs (around : Surroundings (StateM World)) (like : World → World → Prop)
    (store : World → Store) (session : Session) (migrated : String) (world : World)
    (run : Session × World) : Prop :=
  ∃ resumed left, resumeSession around session (some migrated) world = (.ok resumed, left) ∧
    resumed.untimed = run.1.untimed ∧ withRecords like store run.2 left

/-- A session that paused behind the gate and is taken up again with a workspace after the
migration ends as it would have ended with that workspace from the start. -/
theorem resumeSession_of_paused {around : Surroundings (StateM World)}
    {memory : Option (RepositoryMemory (StateM World))} {like : World → World → Prop}
    {store : World → Store} {session : Session} {migrated : String}
    (repeats : around.Repeats memory like store [session.repository, migrated])
    (notMigrated : session.migratedPath = none) (errorless : session.error = none)
    {first second later : World} (starts : withRecords like store first second) :
    let straight := runSession around { session with migratedPath := some migrated } first
    let paused := runSession around session second
    paused.1.progress = .riskAnalyzed → withRecords like store paused.2 later →
      paused.1.EndsAs around like store migrated later straight := by
  intro straight paused passed between
  let known : Session := { session with migratedPath := some migrated }
  let gate := runStages around true Stage.upToGate known first
  have knownPath : gate.1.migratedPath = some migrated :=
    runStages_migratedPath around true _ known first
  have home : gate.1.repository = session.repository :=
    runStages_repository around true _ known first
  have straightEnds : straight = runStages around true Stage.behindGate gate.1 gate.2 :=
    runSession_eq around known first
  have pausedEnds : paused = runStages around true Stage.upToGate session second :=
    runSession_of_not_migrated around notMigrated second
  -- Up to the gate nothing looks at the workspace after the migration.
  have atGate : gate.1.bare = paused.1.bare ∧ withRecords like store gate.2 paused.2 := by
    have bare : known.bare = session.bare := rfl
    have unseen : .validate ∉ Stage.upToGate := by decide
    rw [pausedEnds]
    exact agrees_runStages repeats.steady bare List.mem_cons_self (fun seen => absurd seen unseen)
      (known.not_restsIn_upToGate true) (session.not_restsIn_upToGate true) first second starts
  have error : paused.1.error = none := by
    have means : session.ErrorMeansFailed := fun holds => by simp [errorless] at holds
    rw [pausedEnds] at passed ⊢
    exact (runStages_errorMeansFailed around true _ means second).error_of_riskAnalyzed passed
  -- Behind the gate both sessions look at the same workspace.
  have opened : (paused.1.reopened (some migrated)).bare = paused.1.bare := by
    rw [Session.bare_reopened, ← show paused.1.bare.error = none from error,
      ← show paused.1.bare.progress = .riskAnalyzed from passed]
  have paths : gate.1.migratedPath = (paused.1.reopened (some migrated)).migratedPath := knownPath
  have among : ∀ workspace ∈ gate.1.migratedPath, workspace ∈ [session.repository, migrated] := by
    simp [knownPath]
  have behind := agrees_runStages repeats.steady (atGate.1.trans opened.symm)
    (home ▸ List.mem_cons_self) (fun _ => ⟨paths, among⟩)
    (Session.not_restsIn_of_migrated knownPath true Stage.behindGate)
    (Session.not_restsIn_of_migrated (paths ▸ knownPath) false Stage.behindGate) gate.2 later
    (repeats.trans_records atGate.2 between)
  have resumable : paused.1.progress.isResumable = true := by
    rw [passed]
    rfl
  let resumed := runStages around false Stage.behindGate (paused.1.reopened (some migrated)) later
  have accepted : resumeSession around paused.1 (some migrated) later =
      (.ok resumed.1, resumed.2) := by
    rw [resumeSession, if_pos resumable]
    rfl
  have place : straight.1.migratedPath = resumed.1.migratedPath := by
    rw [straightEnds]
    exact (runStages_migratedPath around true _ _ _).trans
      (paths.trans (runStages_migratedPath around false _ _ _).symm)
  rw [straightEnds] at place ⊢
  exact ⟨resumed.1, resumed.2, accepted, (Session.untimed_eq_of_bare behind.1 place).symm, behind.2⟩

end MigrationGuard
