/-
This file counts what a call leaves in memory. A call runs a new session or takes
a session up again. Where the gate closes or a verdict is given, there is one row
more among the runs, and otherwise none; and with a verdict each drift of a
function is counted once. Whatever else a session does leaves the runs and the
drifts alone. A call is followed stage by stage: as long as nothing was recorded
that counts, the world is one that the session can come to with the runs and
drifts it started from, and the two stages that record something are the gate, if
it closes, and the report. That a run can be recorded needs an identity that no
row has yet, which is asked of all worlds that the call can come to. At the end a
session is stopped by the gate and then taken up again, which leaves a row each
time.
-/

import MigrationGuard.Proofs.Behavior.Comparison
import MigrationGuard.Proofs.Memory.Recordings
import MigrationGuard.Proofs.Session.MemoryIndependence

namespace MigrationGuard

open Data

variable {World : Type}

/-! ### Calls -/

/-- A call with the session that its stages are given, and what it leaves: a new session is run, or
one that an earlier call left is taken up again. -/
inductive Session.Called (around : Surroundings (StateM World)) (world : World) :
    Session → Session × World → Prop where
  /-- A first run. -/
  | ran {session : Session} (new : session.IsNew) :
    Called around world session (runSession around session world)
  /-- A session is taken up again, and that is not refused. -/
  | resumed {session next : Session} {later : World} (migrated : Option String)
      (accepted : resumeSession around session migrated world = (.ok next, later)) :
    Called around world (session.reopened migrated) (next, later)

/-! ### What a call leaves in memory -/

/-- The row is about a run of the session, at whatever time that was recorded. -/
structure RunRecord.IsOf (row : RunRecord) (repository : String) (session : Session) : Prop where
  /-- It belongs to the repository. -/
  belongs : row.repository = repository
  /-- The drift has a function, so it can be recorded as a drift of that function. -/
  names : row.session = Text.trimmed session.id
  /-- Its identity is made of these and of the time. -/
  identity : row.id = recordId "run" repository row.session row.ranAt

/-- The row says that the gate closed, before any behaviour was compared. -/
structure RunRecord.TellsBlock (row : RunRecord) (repository : String) (session : Session) : Prop
    extends row.IsOf repository session where
  /-- That is the verdict. -/
  verdict : row.verdict = some "BLOCKED"
  /-- No behaviour was compared. -/
  preservationPct : row.preservationPct = none
  /-- There are no drifts to count. -/
  criticalDrifts : row.criticalDrifts = none
  /-- The risk is the one that closed the gate. -/
  riskScore : row.riskScore = session.assessment.map fun assessment =>
    Store.keptNumber assessment.score

/-- The row says what the report of the session says, as far as a store can keep it. -/
structure RunRecord.TellsReport (row : RunRecord) (repository : String) (session : Session)
    (report : ConfidenceReport Float) : Prop extends row.IsOf repository session where
  /-- The session has the report. -/
  reported : session.report = some report
  /-- The verdict. -/
  verdict : row.verdict = some (Named.name report.verdict)
  /-- The percentage of preserved behaviour. -/
  preservationPct : row.preservationPct = some (Store.keptNumber report.preservationPct)
  /-- The number of critical drifts, as far as a store can hold it. -/
  criticalDrifts : row.criticalDrifts = some (min (report.criticalDrifts : Int) (2 ^ 63 - 1))
  /-- The risk. -/
  riskScore : row.riskScore = report.riskScore.map Store.keptNumber

/-- The rows that a call adds to the runs when it leaves the session. -/
def Session.AddsRows (session : Session) (repository : String) (rows : List RunRecord) : Prop :=
  match session.progress with
  | .riskBlocked => ∃ row, rows = [row] ∧ row.TellsBlock repository session
  | .complete => ∃ row report, rows = [row] ∧ row.TellsReport repository session report
  | _ => rows = []

/-- The drift has a function. -/
def Session.names (session : Session) (drift : DriftItem) : Bool :=
  !Text.allBlank (driftFunction drift.testId session.suite)

/-- The number of drifts that a call counts when it leaves the session: those of the comparison that
have a function, if there is a verdict. -/
def Session.countedDrifts (session : Session) : Nat :=
  match session.progress with
  | .complete => ((session.validation.map ValidationResult.drifts).getD []).countP session.names
  | _ => 0

/-- What a call that leaves the session adds to a store, and that nothing else is added. -/
structure Store.Gains (before after : Store) (repository : String) (session : Session) : Prop where
  /-- Runs are added behind those that are there. -/
  runs : ∃ rows, after.runs = before.runs ++ rows ∧ session.AddsRows repository rows
  /-- Drifts are counted. -/
  occurrences :
    after.occurrences repository = before.occurrences repository + session.countedDrifts

/-! ### Memory that works -/

/-- The session remembers with a memory that works, and all else that it is surrounded by leaves the
store alone. -/
structure Surroundings.Remembers (around : Surroundings (StateM World))
    (memory : RepositoryMemory (StateM World)) (store : World → Store) (workspaces : List String) :
    Prop where
  /-- The memory is used. -/
  uses : around.memory = some (.ofRepository memory around.clock)
  /-- It works. -/
  works : memory.Works store
  /-- The calls in the workspaces. -/
  workspace : ∀ workspace ∈ workspaces, ∀ {Answer Taken : Type} {action : StateM World Answer}
    {taken : Answer → Taken}, WorkspaceCall around workspace action taken → Leaves store action
  /-- Notices. -/
  notify : ∀ notify, around.notify = some notify → ∀ notice, Leaves store (notify notice)
  /-- Reading the clock. -/
  clock : Leaves store around.clock

/-- What a session does besides recording runs and drifts, which leaves both alone. -/
inductive SideCall (around : Surroundings (StateM World)) (workspaces : List String) :
    {Answer : Type} → StateM World Answer → Prop where
  /-- It works in a workspace. -/
  | workspace {workspace : String} (among : workspace ∈ workspaces) {Answer Taken : Type}
      {action : StateM World Answer} {taken : Answer → Taken}
      (call : WorkspaceCall around workspace action taken) : SideCall around workspaces action
  /-- It records functions. -/
  | functions {memory : SessionMemory (StateM World)} (known : around.memory = some memory)
      (nodes : List CallNode) : SideCall around workspaces (memory.recordFunctions nodes)
  /-- It asks for warnings. -/
  | warnings {memory : SessionMemory (StateM World)} (known : around.memory = some memory)
      (changes : List PatchChange) : SideCall around workspaces (memory.warnings changes)
  /-- It asks for past runs. -/
  | pastRuns {memory : SessionMemory (StateM World)} (known : around.memory = some memory)
      (limit : Nat) : SideCall around workspaces (memory.pastRuns limit)
  /-- It asks for drifts. -/
  | knownDrifts {memory : SessionMemory (StateM World)} (known : around.memory = some memory) :
    SideCall around workspaces memory.knownDrifts
  /-- It sends a notice. -/
  | notice {notify : Notice → StateM World Unit} (known : around.notify = some notify)
      (notice : Notice) : SideCall around workspaces (notify notice)
  /-- It reads the clock. -/
  | clock : SideCall around workspaces around.clock

/-- The worlds that a session can come to before it records a run. -/
inductive Surroundings.LeadsTo (around : Surroundings (StateM World)) (workspaces : List String)
    (start : World) : World → Prop where
  /-- Nothing is done. -/
  | here : LeadsTo around workspaces start start
  /-- One thing more is done. -/
  | further {world : World} (leads : LeadsTo around workspaces start world) {Answer : Type}
      {action : StateM World Answer} (call : SideCall around workspaces action) :
    LeadsTo around workspaces start (action world).2

/-- Nothing was recorded yet that counts, whatever else was done on the way. -/
def Surroundings.Untallied (around : Surroundings (StateM World)) (store : World → Store)
    (workspaces : List String) (start world : World) : Prop :=
  around.LeadsTo workspaces start world ∧ (store world).tallied = (store start).tallied

section
variable {around : Surroundings (StateM World)} {memory : RepositoryMemory (StateM World)}
  {store : World → Store} {workspaces : List String}
  (remembers : around.Remembers memory store workspaces)
include remembers

theorem SideCall.leaves_tallied {Answer : Type} {action : StateM World Answer}
    (call : SideCall around workspaces action) :
    Leaves (fun world => (store world).tallied) action := by
  have works := remembers.works
  cases call with
  | workspace among call => exact (remembers.workspace _ among call).through Store.tallied
  | functions known nodes =>
    obtain rfl := Option.some.inj (remembers.uses.symm.trans known)
    exact Leaves.bind (remembers.clock.through Store.tallied) fun now =>
      works.leaves_recordFunctions nodes now
  | warnings known changes =>
    obtain rfl := Option.some.inj (remembers.uses.symm.trans known)
    exact (works.leaves_proactiveWarnings changes).through Store.tallied
  | pastRuns known limit =>
    obtain rfl := Option.some.inj (remembers.uses.symm.trans known)
    exact (works.leaves_look _).through Store.tallied
  | knownDrifts known =>
    obtain rfl := Option.some.inj (remembers.uses.symm.trans known)
    exact (works.leaves_look _).through Store.tallied
  | notice known notice => exact (remembers.notify _ known notice).through Store.tallied
  | clock => exact remembers.clock.through Store.tallied

variable {start : World}

theorem SideCall.carries {Answer : Type} {action : StateM World Answer}
    (call : SideCall around workspaces action) :
    Carries (around.Untallied store workspaces start) (around.Untallied store workspaces start)
      action :=
  fun world held => ⟨held.1.further call, (call.leaves_tallied remembers world).trans held.2⟩

/-! ### Stages that record nothing -/

/-- Without memory and notices all calls are in workspaces, which leave the store alone. -/
theorem Surroundings.Remembers.steady (start : World) :
    ({ around with memory := none, notify := none } : Surroundings (StateM World)).Steady
      (fun first second => first = second ∧ around.Untallied store workspaces start first)
      workspaces where
  workspace _ among _ _ _ taken call :=
    (SideCall.carries remembers (.workspace among call.of_without)).agrees taken
  memory _ known := nomatch known
  notify _ known := nomatch known
  clock := (SideCall.carries remembers .clock).agrees _

theorem carries_askMemory {Answer : Type} {usual : Answer}
    {ask : SessionMemory (StateM World) → StateM World (Except MemoryFailure Answer)}
    (call : ∀ kept, around.memory = some kept → SideCall around workspaces (ask kept)) :
    Carries (around.Untallied store workspaces start) (around.Untallied store workspaces start)
      (around.askMemory usual ask) := by
  rw [Surroundings.askMemory, remembers.uses]
  exact (SideCall.carries remembers (call _ remembers.uses)).bind fun _ =>
    Carries.pure (fun _ held => held) _

/-- The stages besides the gate and the verdict record neither runs nor drifts. -/
theorem Stage.carries_perform {stage : Stage} (other : stage ≠ .riskGate ∧ stage ≠ .report)
    {session : Session} (among : session.repository ∈ workspaces)
    (inside : ∀ workspace ∈ session.migratedPath, workspace ∈ workspaces) :
    Carries (around.Untallied store workspaces start) (around.Untallied store workspaces start)
      (stage.perform around session) := by
  have agrees := agrees_perform (remembers.steady start) rfl stage among fun _ => ⟨rfl, inside⟩
  cases stage with
  | ingest => exact agrees.carries
  | deadCode => exact agrees.carries
  | baseline => exact agrees.carries
  | validate => exact agrees.carries
  | riskGate => exact absurd rfl other.1
  | report => exact absurd rfl other.2
  | mine =>
    -- Mining also records functions, so it does not go the same way without memory.
    refine (SideCall.carries remembers (.workspace among .find)).bind fun found => ?_
    cases (around.miner session.repository).mine found session.targetModule with
    | error failure => exact Carries.pure (fun _ held => held) _
    | ok outcome =>
      exact (carries_askMemory remembers fun kept known => .functions known _).bind fun changed =>
        Carries.pure (fun _ held => held) _

/-! ### The gate -/

theorem carries_recollect (changes : List PatchChange) :
    Carries (around.Untallied store workspaces start) (around.Untallied store workspaces start)
      (recollect around changes) := by
  refine (carries_askMemory remembers fun _ known => .warnings known _).bind fun _ => ?_
  refine (carries_askMemory remembers fun _ known => .pastRuns known _).bind fun _ => ?_
  refine (carries_askMemory remembers fun _ known => .knownDrifts known).bind fun _ => ?_
  exact Carries.pure (fun _ held => held) _

theorem carries_sendNotice (session : Session) (assessment : RiskAssessment Float)
    (blocked : Bool) :
    Carries (around.Untallied store workspaces start) (around.Untallied store workspaces start)
      (sendNotice around session assessment blocked) := by
  unfold sendNotice
  split
  · rename_i notify known
    split
    · exact SideCall.carries remembers (.notice known _)
    · exact Carries.pure (fun _ held => held) _
  · exact Carries.pure (fun _ held => held) _

/-- Where there is a run before the migration, the gate succeeds, and tells memory of a run just if
it closes. -/
theorem passGate_cases {session : Session} {run : TestRun} (taken : session.baselineRun = some run)
    {world : World} (held : around.Untallied store workspaces start world) :
    ∃ assessment, ∃ blocked : Bool, ∃ sent, around.Untallied store workspaces start sent ∧
      passGate around session world = (.ok { session with
          assessment := some assessment
          progress := if blocked then .riskBlocked else .riskAnalyzed },
        if blocked then (around.tellMemory
          (fun kept => kept.recordRun (session.blockedRequest assessment)) sent).2
        else sent) := by
  have asked := carries_recollect remembers session.judgedChanges world held
  have timed := SideCall.carries remembers .clock _ asked
  unfold passGate
  rw [taken]
  dsimp only
  rw [bind_apply, bind_apply, bind_apply]
  generalize session.judge _ _ _ = assessment
  generalize (gateDecision assessment.score _ == .block) = blocked
  have sent := carries_sendNotice remembers session assessment blocked _ timed
  refine ⟨assessment, blocked, _, sent, ?_⟩
  cases blocked <;> rfl

section
variable {given : Session} (named : Text.allBlank given.id = false)
  (free : ∀ left, around.LeadsTo workspaces start left → ∀ row ∈ (store left).runs,
    row.id ≠ recordId "run" memory.id (Text.trimmed given.id) (around.clock left).1)
include named free

/-- A run that is recorded is one row more, and the drifts stay as they are. -/
theorem tallied_tellRun (request : RunRequest) (same : request.session = given.id) {world : World}
    (held : around.Untallied store workspaces start world) :
    (store (around.tellMemory (fun kept => kept.recordRun request) world).2).tallied =
      ((store start).runs ++ [(memory.runRecord request (around.clock world).1).kept],
        (store start).drifts) := by
  have unchanged : store (around.clock world).2 = store world := remembers.clock world
  have fresh : ∀ row ∈ (store (around.clock world).2).runs,
      row.id ≠ (memory.runRecord request (around.clock world).1).id := by
    rw [unchanged, RepositoryMemory.runRecord, same]
    exact free world held.1
  have recorded := remembers.works.tallied_recordRun request _ _ (same ▸ named) fresh
  have runs : (store world).runs = (store start).runs := congrArg Prod.fst held.2
  have drifts : (store world).drifts = (store start).drifts := congrArg Prod.snd held.2
  rw [unchanged, runs, drifts] at recorded
  rw [Surroundings.tellMemory, remembers.uses]
  exact recorded

/-- The gate records a run just if it closes, with the risk that closed it. -/
theorem passGate_tallies {session : Session} (same : session.id = given.id) {world left : World}
    (held : around.Untallied store workspaces start world) {ends : Except StageFailure Session}
    (performed : passGate around session world = (ends, left)) :
    (around.Untallied store workspaces start left ∧
        ∀ next, ends = .ok next → next.progress = .riskAnalyzed) ∨
      ∃ next, ends = .ok next ∧ next.progress = .riskBlocked ∧
        (store start).Gains (store left) memory.id next := by
  cases taken : session.baselineRun with
  | none =>
    have failed : passGate around session world = (.error .noBaseline, world) := by
      rw [passGate, taken]
      rfl
    obtain ⟨rfl, rfl⟩ := Prod.mk.inj (failed.symm.trans performed)
    exact .inl ⟨held, fun _ is => by cases is⟩
  | some run =>
    obtain ⟨assessment, blocked, sent, untallied, ends⟩ := passGate_cases remembers taken held
    obtain ⟨rfl, rfl⟩ := Prod.mk.inj (ends.symm.trans performed)
    cases blocked with
    | false => exact .inl ⟨untallied, fun next is => by rw [← Except.ok.inj is]; rfl⟩
    | true =>
      have recorded := tallied_tellRun remembers named free (session.blockedRequest assessment) same
        untallied
      have runs := congrArg Prod.fst recorded
      have drifts := congrArg Prod.snd recorded
      refine .inr ⟨_, rfl, rfl, ⟨_, runs, _, rfl, ?_⟩, ?_⟩
      · exact ⟨⟨rfl, rfl, rfl⟩, rfl, rfl, rfl, rfl⟩
      · exact (Store.occurrences_congr drifts memory.id).trans (Int.add_zero _).symm

/-! ### The verdict -/

omit named free in
/-- Each drift that has a function is counted once, in whatever order they come. -/
theorem recordDrifts_adds (session : Session) {drifts : List DriftItem}
    (described : ∀ drift ∈ drifts, Text.allBlank drift.description = false) (world : World) :
    let later := (recordDrifts around session drifts world).2
    (store later).runs = (store world).runs ∧ (store later).occurrences memory.id =
      (store world).occurrences memory.id + drifts.countP session.names := by
  induction drifts generalizing world with
  | nil => exact ⟨rfl, (Int.add_zero _).symm⟩
  | cons drift drifts inductionHypothesis =>
    obtain ⟨first, others⟩ := List.forall_mem_cons.mp described
    have unchanged : store (around.clock world).2 = store world := remembers.clock world
    obtain ⟨sameRuns, adds⟩ := remembers.works.recordDrift_adds (session.driftRequest drift)
      (around.clock world).1 (around.clock world).2 first
    obtain ⟨runs, further⟩ := inductionHypothesis others (memory.recordDrift
      (session.driftRequest drift) (around.clock world).1 (around.clock world).2).2
    have step : (recordDrifts around session (drift :: drifts) world).2 =
        (recordDrifts around session drifts (memory.recordDrift (session.driftRequest drift)
          (around.clock world).1 (around.clock world).2).2).2 := by
      rw [recordDrifts, Surroundings.tellMemory, remembers.uses]
      rfl
    intro later
    rw [show later = _ from step, runs, further, sameRuns, adds, unchanged]
    refine ⟨rfl, ?_⟩
    have names : session.names drift = !Text.allBlank (session.driftRequest drift).function := rfl
    rw [List.countP_cons, names, Int.add_assoc, Int.natCast_add,
      Int.add_comm (drifts.countP _ : Int)]
    cases Text.allBlank (session.driftRequest drift).function <;> rfl

/-- Where there is a comparison, the verdict is recorded with the drifts that it found. -/
theorem giveVerdict_gains {session : Session} (same : session.id = given.id)
    {validation : ValidationResult Float} (compared : session.validation = some validation)
    (described : ∀ drift ∈ validation.drifts, Text.allBlank drift.description = false)
    {world : World} (held : around.Untallied store workspaces start world) :
    ∃ next, (giveVerdict around session world).1 = .ok next ∧
      (store start).Gains (store (giveVerdict around session world).2) memory.id next := by
  let report := confidenceReport validation (session.suite.map TestSuite.coveragePct)
    session.assessment
  let told := around.tellMemory (fun kept => kept.recordRun (session.verdictRequest report)) world
  have recorded := tallied_tellRun remembers named free (session.verdictRequest report) same held
  obtain ⟨runs, adds⟩ := recordDrifts_adds remembers session described told.2
  have ends : giveVerdict around session world =
      (.ok { session with report := some report, progress := .complete },
        (recordDrifts around session validation.drifts told.2).2) := by
    rw [giveVerdict, compared]
    rfl
  rw [ends]
  refine ⟨_, rfl, ⟨_, runs.trans (congrArg Prod.fst recorded), _, report, rfl, ?_⟩, ?_⟩
  · exact ⟨⟨rfl, rfl, rfl⟩, rfl, rfl, rfl, rfl, rfl⟩
  · have before : (store told.2).occurrences memory.id = (store start).occurrences memory.id :=
      Store.occurrences_congr (congrArg Prod.snd recorded) memory.id
    have counted : Session.countedDrifts
        { session with report := some report, progress := .complete } =
          validation.drifts.countP session.names := by
      rw [Session.countedDrifts]
      dsimp only
      rw [compared]
      rfl
    rw [adds, before, counted]

/-! ### Runs of stages -/

omit remembers named free in
/-- A session that rests or failed, and with which nothing was recorded, adds nothing. -/
theorem gains_nothing {session : Session} {world : World}
    (held : around.Untallied store workspaces start world)
    (other : session.progress ≠ .riskBlocked ∧ session.progress ≠ .complete) :
    (store start).Gains (store world) memory.id session := by
  obtain ⟨-, same⟩ := held
  constructor
  · refine ⟨[], (congrArg Prod.fst same).trans (List.append_nil _).symm, ?_⟩
    unfold Session.AddsRows
    split
    · rename_i blocked
      exact absurd blocked other.1
    · rename_i complete
      exact absurd complete other.2
    · rfl
  · have none : session.countedDrifts = 0 := by
      unfold Session.countedDrifts
      split
      · rename_i complete
        exact absurd complete other.2
      · rfl
    rw [none, Store.occurrences_congr (congrArg Prod.snd same)]
    exact (Int.add_zero _).symm

variable (pauses : Bool) {session : Session} (isOpen : ¬ session.isStopped)
  (begun : session.begun = given.begun) {world : World}
include isOpen begun

theorem gains_from_report {validation : ValidationResult Float}
    (compared : session.validation = some validation)
    (described : ∀ drift ∈ validation.drifts, Text.allBlank drift.description = false)
    (held : around.Untallied store workspaces start world) :
    let ends := runStages around pauses [.report] session world
    (store start).Gains (store ends.2) memory.id ends.1 := by
  have same : session.id = given.id := (congrArg Session.id begun :)
  obtain ⟨next, done, gains⟩ := giveVerdict_gains remembers named free same compared described held
  let ending : Session × World → Prop := fun ends =>
    (store start).Gains (store ends.2) memory.id ends.1
  show ending _
  refine runStages_ends around pauses isOpen ?_ ?_ ?_
  · intro rests
    exact absurd rests (session.not_restsIn pauses (by decide))
  · intro failure left failed
    exact nomatch (congrArg Prod.fst failed).symm.trans done
  · intro after left succeeded
    have performed : giveVerdict around session world = (.ok after, left) := succeeded
    rw [performed] at done gains
    obtain rfl := Except.ok.inj done
    exact gains

variable (among : given.repository ∈ workspaces)
  (inside : ∀ workspace ∈ given.migratedPath, workspace ∈ workspaces)
include among inside

omit named free isOpen in
theorem untallied_of_perform {stage : Stage} (other : stage ≠ .riskGate ∧ stage ≠ .report)
    (held : around.Untallied store workspaces start world) {left : World}
    {ends : Except StageFailure Session}
    (performed : stage.perform around session world = (ends, left)) :
    around.Untallied store workspaces start left := by
  have repository : session.repository = given.repository := (congrArg Session.repository begun :)
  have path : session.migratedPath = given.migratedPath := (congrArg Session.migratedPath begun :)
  have carries :=
    Stage.carries_perform remembers other (repository ▸ among) (path ▸ inside) world held
  rwa [performed] at carries

theorem gains_from_validate (passed : session.progress = .riskAnalyzed)
    (held : around.Untallied store workspaces start world) :
    let ends := runStages around pauses [.validate, .report] session world
    (store start).Gains (store ends.2) memory.id ends.1 := by
  let ending : Session × World → Prop := fun ends =>
    (store start).Gains (store ends.2) memory.id ends.1
  show ending _
  refine runStages_ends around pauses isOpen ?_ ?_ ?_
  · intro rests
    exact gains_nothing held (by rw [passed]; decide)
  · intro failure left failed
    have untallied := untallied_of_perform remembers begun among inside (by decide) held failed
    exact gains_nothing untallied ⟨nofun, nofun⟩
  · intro after left succeeded
    have untallied := untallied_of_perform remembers begun among inside (by decide) held succeeded
    have turns : Stage.validate.Turns session after := Stage.turns_of_perform (by rw [succeeded])
    have goesOn := turns.not_stopped isOpen (turns.not_blocked (by decide))
    have begunToo := turns.begun.trans begun
    cases turns with
    | validate migrated supplied baseline taken run =>
      refine gains_from_report remembers named free pauses goesOn begunToo rfl ?_ untallied
      intro drift member
      obtain ⟨before, found, -, -, reported⟩ := (mem_drifts_iff baseline run).mp member
      exact reported.described

theorem gains_from_gate (held : around.Untallied store workspaces start world) :
    let ends := runStages around pauses [.riskGate, .validate, .report] session world
    (store start).Gains (store ends.2) memory.id ends.1 := by
  let ending : Session × World → Prop := fun ends =>
    (store start).Gains (store ends.2) memory.id ends.1
  have same : session.id = given.id := (congrArg Session.id begun :)
  show ending _
  refine runStages_ends around pauses isOpen ?_ ?_ ?_
  · intro rests
    exact absurd rests (session.not_restsIn pauses (by decide))
  · intro failure left failed
    obtain ⟨untallied, -⟩ | ⟨next, succeeded, -⟩ :=
      passGate_tallies remembers named free same held failed
    · exact gains_nothing untallied ⟨nofun, nofun⟩
    · exact nomatch succeeded
  · intro after left succeeded
    have turns : Stage.riskGate.Turns session after := Stage.turns_of_perform (by rw [succeeded])
    obtain ⟨untallied, passes⟩ | ⟨next, isNext, blocked, gains⟩ :=
      passGate_tallies remembers named free same held succeeded
    · have passed := passes after rfl
      have goesOn := turns.not_stopped isOpen (by rw [passed]; decide)
      exact gains_from_validate remembers named free pauses goesOn (turns.begun.trans begun) among
        inside passed untallied
    · obtain rfl := Except.ok.inj isNext
      show ending (runStages around pauses _ after left)
      rw [runStages_of_stopped around pauses _ ((Session.isStopped_iff _).mpr (Or.inr blocked))]
      exact gains

/-- Stages in front of the gate record nothing, so a run records what it records from the gate
on. -/
theorem gains_from_early {early : List Stage}
    (each : ∀ stage ∈ early, stage ∉ [.riskGate, .validate, .report])
    (held : around.Untallied store workspaces start world) :
    let ends := runStages around pauses (early ++ [.riskGate, .validate, .report]) session world
    (store start).Gains (store ends.2) memory.id ends.1 := by
  induction early generalizing session world with
  | nil => exact gains_from_gate remembers named free pauses isOpen begun among inside held
  | cons stage early inductionHypothesis =>
    obtain ⟨first, others⟩ := List.forall_mem_cons.mp each
    obtain ⟨gate, validates, reports⟩ :
        stage ≠ .riskGate ∧ stage ≠ .validate ∧ stage ≠ .report := by
      simpa using first
    let ending : Session × World → Prop := fun ends =>
      (store start).Gains (store ends.2) memory.id ends.1
    show ending _
    refine runStages_ends around pauses isOpen ?_ ?_ ?_
    · intro rests
      exact absurd rests (session.not_restsIn pauses validates)
    · intro failure left failed
      have untallied :=
        untallied_of_perform remembers begun among inside ⟨gate, reports⟩ held failed
      exact gains_nothing untallied ⟨nofun, nofun⟩
    · intro after left succeeded
      have untallied :=
        untallied_of_perform remembers begun among inside ⟨gate, reports⟩ held succeeded
      have turns : stage.Turns session after := Stage.turns_of_perform (by rw [succeeded])
      exact inductionHypothesis (turns.not_stopped isOpen (turns.not_blocked gate))
        (turns.begun.trans begun) others untallied

end

end

/-! ### Calls of a session -/

/-- A world that is led to has the same runs, as nothing on the way records one. -/
theorem Surroundings.LeadsTo.runs_eq {around : Surroundings (StateM World)}
    {memory : RepositoryMemory (StateM World)} {store : World → Store} {workspaces : List String}
    (remembers : around.Remembers memory store workspaces) {start world : World}
    (leads : around.LeadsTo workspaces start world) : (store world).runs = (store start).runs := by
  induction leads with
  | here => rfl
  | further _ call inductionHypothesis =>
    exact (congrArg Prod.fst (call.leaves_tallied remembers _)).trans inductionHypothesis

/-- What a call of a session leaves in a memory that works, as long as no run gets the identity of
one that is there. If the gate closed, one row says so; if there is a report, one row says what it
says and its drifts are counted as far as they have a function; and otherwise there is nothing new
among the runs and the drifts. Every session that begins has a name, see `allBlank_sessionId`. -/
theorem Session.Called.gains {around : Surroundings (StateM World)}
    {memory : RepositoryMemory (StateM World)} {store : World → Store} {given : Session}
    {world : World} {ends : Session × World} (called : Session.Called around world given ends)
    (remembers : around.Remembers memory store (given.repository :: given.migratedPath.toList))
    (named : Text.allBlank given.id = false)
    (free : ∀ left, around.LeadsTo (given.repository :: given.migratedPath.toList) world left →
      ∀ row ∈ (store left).runs,
        row.id ≠ recordId "run" memory.id (Text.trimmed given.id) (around.clock left).1) :
    (store world).Gains (store ends.2) memory.id ends.1 := by
  have among : given.repository ∈ given.repository :: given.migratedPath.toList :=
    List.mem_cons_self
  have inside : ∀ workspace ∈ given.migratedPath,
      workspace ∈ given.repository :: given.migratedPath.toList :=
    fun workspace isPath => List.mem_cons_of_mem _ (Option.mem_toList.mpr isPath)
  have held : around.Untallied store (given.repository :: given.migratedPath.toList) world world :=
    ⟨.here, rfl⟩
  cases called with
  | ran new =>
    have isOpen : ¬ given.isStopped := by
      rw [new]
      exact Bool.false_ne_true
    have each : ∀ stage ∈ [Stage.ingest, .mine, .deadCode, .baseline],
        stage ∉ [.riskGate, .validate, .report] := by
      decide
    exact gains_from_early remembers named free true isOpen rfl among inside each held
  | @resumed session next later migrated accepted =>
    have isOpen : ¬ (session.reopened migrated).isStopped := Bool.false_ne_true
    have gains := gains_from_validate remembers named free false isOpen rfl among inside rfl held
    unfold resumeSession at accepted
    split at accepted
    · rw [bind_apply, pure_apply] at accepted
      obtain ⟨isNext, rfl⟩ := Prod.mk.inj accepted
      obtain rfl := Except.ok.inj isNext
      exact gains
    · exact nomatch congrArg Prod.fst accepted

/-- Two tests pass in the old workspace and fail in every other one. -/
def strictOutcome (call : RunnerCall) : RunnerOutcome :=
  let outcome := if call.workspace = "old" then " PASSED" else " FAILED"
  .finished ("test__0.py" ++ outcome ++ "\npay" ++ outcome) 1.0

/-- A world that is nothing but a store. Every risk closes the gate, the tests pass in the old
workspace only, and it is as late as there are runs. -/
def strictSurroundings : Surroundings (StateM Store) where
  settings := { risk := { blockThreshold := 0.0 } }
  files := {
    find := fun _ => return .ok (.directory [("app.py", .file [])])
    read := fun _ => return .ok []
    write := fun _ _ => return .ok ()
    makeDirectories := fun _ => return .ok ()
    removeDirectory := fun _ => return .ok ()
    removeFile := fun _ => return .ok ()
    resolve := fun path => return .ok path }
  runner call := return strictOutcome call
  memory := some (.ofRepository (.ofStore "shop") fun store => (store.runs.length, store))
  notify := none
  clock := fun store => (store.runs.length, store)

theorem strictSurroundings_remembers (workspaces : List String) :
    strictSurroundings.Remembers (.ofStore "shop") (fun store => store) workspaces where
  uses := rfl
  works := RepositoryMemory.works_ofStore "shop"
  workspace _ _ _ _ _ _ call := by cases call <;> exact fun _ => rfl
  notify _ known := nomatch known
  clock _ := rfl

/-- A session with a test of a function that has no name, so one of its drifts has none. -/
def strictSession : Session :=
  { quietSession with suite := some ⟨[⟨" ", "", false, []⟩], 100.0, [], []⟩ }

/-- What the first call leaves: a session before a closed gate, and a store. -/
def stoppedCall : Session × Store :=
  runSession strictSurroundings strictSession .empty

/-- What is left when the session is taken up again with a workspace after the migration. -/
def finishedCall : Session × Store :=
  runStages strictSurroundings false Stage.behindGate (stoppedCall.1.reopened (some "new"))
    stoppedCall.2

theorem stoppedCall_free : ∀ row ∈ stoppedCall.2.runs, row.id ≠
    recordId "run" "shop" (Text.trimmed strictSession.id) stoppedCall.2.runs.length := by
  decide +kernel

theorem finishedCall_complete :
    finishedCall.1.progress = .complete ∧ finishedCall.1.countedDrifts = 1 := by
  decide +kernel

/-- The first call leaves a row that says that the gate is closed. The second one leaves a row about
the report, and one of two drifts has a function. -/
theorem stoppedCall_gains :
    stoppedCall.1.progress = .riskBlocked ∧
      Store.empty.Gains stoppedCall.2 "shop" stoppedCall.1 ∧
      finishedCall.1.progress = .complete ∧ finishedCall.1.countedDrifts = 1 ∧
      stoppedCall.2.Gains finishedCall.2 "shop" finishedCall.1 := by
  have new : strictSession.IsNew := rfl
  have named : Text.allBlank strictSession.id = false := by decide
  have blocked : stoppedCall.1.progress = .riskBlocked := by decide +kernel
  have begun : stoppedCall.1.begun = strictSession.begun :=
    runStages_begun strictSurroundings true Stage.inOrder strictSession .empty
  have id : (stoppedCall.1.reopened (some "new")).id = strictSession.id :=
    (congrArg Session.id begun :)
  have follows : ∀ ends : Session × Store,
      resumeSession strictSurroundings stoppedCall.1 (some "new") stoppedCall.2 =
        (.ok ends.1, ends.2) → stoppedCall.2.Gains ends.2 "shop" ends.1 := by
    intro ends accepted
    refine Session.Called.gains (.resumed (some "new") accepted) (strictSurroundings_remembers _)
      (id ▸ named) ?_
    intro left leads row among
    have same : left.runs = stoppedCall.2.runs := leads.runs_eq (strictSurroundings_remembers _)
    have time : (strictSurroundings.clock left).1 = stoppedCall.2.runs.length :=
      congrArg (fun runs => (runs.length : Int)) same
    rw [same] at among
    rw [id, time]
    exact stoppedCall_free row among
  refine ⟨blocked, ?_, finishedCall_complete.1, finishedCall_complete.2, ?_⟩
  · refine Session.Called.gains (.ran new) (strictSurroundings_remembers _) named ?_
    intro left leads row among
    have none : left.runs = [] := leads.runs_eq (strictSurroundings_remembers _)
    rw [none] at among
    exact nomatch among
  · exact follows finishedCall
      (resumeSession_of_resumable strictSurroundings (by rw [blocked]; rfl) (some "new") _)

end MigrationGuard
