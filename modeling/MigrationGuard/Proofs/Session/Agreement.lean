/-
This file compares what a stage does in two worlds that are alike. The files, the
runner and memory answer the calls of a session in the same way in both, while the
clock may show something else and suites may take another time. Then a stage ends
in the same way, up to times. The calls that a session makes are listed, those in
a workspace and those to memory, each with what is taken of its answer: of a
directory its sources, of a list of drifts their number, of a run its outcome and
not how long it took. Whether worlds are alike is left open, so the same theorems
serve worlds that were left by different calls, worlds with other stores and
worlds without memory. What is assumed is that each listed call gives alike
answers in alike worlds and leads to alike worlds again.
-/

import MigrationGuard.Proofs.Session.Frame
import MigrationGuard.Proofs.Session.Untimed

namespace MigrationGuard

variable {World : Type}

/-! ### The calls of a session -/

/-- The calls of a session in a workspace, each with what is taken of the answer. -/
inductive WorkspaceCall (around : Surroundings (StateM World)) (workspace : String) :
    {Answer Taken : Type} → StateM World Answer → (Answer → Taken) → Prop where
  /-- The workspace is looked at: is it a directory, and which sources does it hold? -/
  | find : WorkspaceCall around workspace (around.files.find workspace) fun found =>
    (found.toOption.map FileTree.isDirectory, (around.miner workspace).sources found)
  /-- Does something stand where the tests or the report go? -/
  | present (name : String)
      (known : name ∈ [around.settings.harness.testDirectory, around.settings.harness.reportFile]) :
    WorkspaceCall around workspace (around.files.find (Path.join workspace name)) Except.toBool
  /-- The tests of a run before are removed. -/
  | clear : WorkspaceCall around workspace
    (around.files.removeDirectory (Path.join workspace around.settings.harness.testDirectory)) id
  /-- The directory of the tests is made. -/
  | make : WorkspaceCall around workspace
    (around.files.makeDirectories (Path.join workspace around.settings.harness.testDirectory)) id
  /-- A test is written. -/
  | write (name : String) (content : List UInt8) : WorkspaceCall around workspace
    (around.files.write
      (Path.join (Path.join workspace around.settings.harness.testDirectory) name) content) id
  /-- The report of a run before is removed, if that can be done. -/
  | forget : WorkspaceCall around workspace
    (around.files.removeFile (Path.join workspace around.settings.harness.reportFile)) fun _ => ()
  /-- The tests are run. How long that takes is not taken. -/
  | run (call : RunnerCall) (inside : call.workspace = workspace) :
    WorkspaceCall around workspace (around.runner call) RunnerOutcome.untimed
  /-- The report is read. -/
  | read : WorkspaceCall around workspace
    (around.files.read (Path.join workspace around.settings.harness.reportFile)) id

/-- The calls in a workspace neither concern memory nor notices, so these may be taken away. -/
theorem WorkspaceCall.of_without {around : Surroundings (StateM World)} {workspace : String}
    {memory : Option (SessionMemory (StateM World))}
    {notify : Option (Notice → StateM World Unit)} {Answer Taken : Type}
    {action : StateM World Answer} {taken : Answer → Taken}
    (call : WorkspaceCall { around with memory, notify } workspace action taken) :
    WorkspaceCall around workspace action taken := by
  cases call with
  | find => exact .find
  | present name known => exact .present name known
  | clear => exact .clear
  | make => exact .make
  | write name content => exact .write name content
  | forget => exact .forget
  | run call inside => exact .run call inside
  | read => exact .read

/-- The calls of a session to memory, each with what is taken of the answer. -/
inductive MemoryCall (memory : SessionMemory (StateM World)) :
    {Answer Taken : Type} → StateM World Answer → (Answer → Taken) → Prop where
  /-- Functions are recorded, and those that changed are told. -/
  | recordFunctions (nodes : List CallNode) :
    MemoryCall memory (memory.recordFunctions nodes) Except.toOption
  /-- Memory is asked for warnings. -/
  | warnings (changes : List PatchChange) :
    MemoryCall memory (memory.warnings changes) Except.toOption
  /-- Memory is asked for the verdicts on the latest runs. -/
  | pastRuns (limit : Nat) : MemoryCall memory (memory.pastRuns limit) fun answer =>
    answer.toOption.map (List.map RunRecord.verdict)
  /-- Memory is asked for the drifts that it knows. Only their number is taken. -/
  | knownDrifts : MemoryCall memory memory.knownDrifts fun answer =>
    answer.toOption.map List.length
  /-- A run is recorded. -/
  | recordRun (request : RunRequest) : MemoryCall memory (memory.recordRun request) Except.toBool
  /-- A drift is recorded. -/
  | recordDrift (request : DriftRequest) :
    MemoryCall memory (memory.recordDrift request) Except.toBool

/-- The calls of a session are answered in the same way in all worlds that are alike. -/
structure Surroundings.Steady (around : Surroundings (StateM World))
    (like : World → World → Prop) (workspaces : List String) : Prop where
  /-- The calls in the workspaces. -/
  workspace : ∀ workspace ∈ workspaces, ∀ {Answer Taken : Type} {action : StateM World Answer}
    {taken : Answer → Taken}, WorkspaceCall around workspace action taken →
      Agrees like taken action action
  /-- The calls to memory, if there is any. -/
  memory : ∀ memory, around.memory = some memory → ∀ {Answer Taken : Type}
    {action : StateM World Answer} {taken : Answer → Taken}, MemoryCall memory action taken →
      Agrees like taken action action
  /-- Notices, which tell the time. -/
  notify : ∀ notify, around.notify = some notify → ∀ (notice : Notice) (other : String),
    Agrees like id (notify notice)
      (notify { notice with assessment := { notice.assessment with computedAt := other } })
  /-- Reading the clock, whatever it shows. -/
  clock : Agrees like (fun _ => ()) around.clock around.clock

/-! ### Suites -/

/-- What running a suite does once its tests are written and an old report is out of the way. -/
def runTests (around : Surroundings (StateM World)) (workspace program : String)
    (arguments : List String) (role : RunRole) : StateM World (Except HarnessFailure TestRun) := do
  match ← around.runner (runnerCall around.settings.harness program arguments workspace) with
  | .failed failure => return .error (.launch program failure)
  | .timedOut => return .error (.timeout around.settings.harness.timeoutSeconds)
  | .finished output elapsedMs =>
    let text := (← around.files.readText
      (Path.join workspace around.settings.harness.reportFile)).toOption
    return .ok (.ofResults role (collectResults text output elapsedMs))

section
variable {around : Surroundings (StateM World)} {like : World → World → Prop}
  {workspaces : List String} (steady : around.Steady like workspaces)
include steady

theorem agrees_present {workspace name : String} (among : workspace ∈ workspaces)
    (known : name ∈ [around.settings.harness.testDirectory, around.settings.harness.reportFile]) :
    Agrees like id (around.files.present (Path.join workspace name))
      (around.files.present (Path.join workspace name)) :=
  Agrees.bind (steady.workspace workspace among (.present name known)) fun _ _ same =>
    Agrees.pure same

theorem agrees_presentDirectory {workspace : String} (among : workspace ∈ workspaces) :
    Agrees like id (around.files.presentDirectory workspace)
      (around.files.presentDirectory workspace) := by
  refine Agrees.bind (steady.workspace workspace among .find) fun one other same => ?_
  have kind := congrArg Prod.fst same
  cases one <;> cases other <;> simp [Except.toOption] at kind
  · exact Agrees.pure rfl
  · exact Agrees.pure kind

theorem agrees_writeFiles {workspace : String} (among : workspace ∈ workspaces)
    (tests : List (String × String)) :
    let files := tests.map fun test =>
      (Path.join (Path.join workspace around.settings.harness.testDirectory) test.1, test.2)
    Agrees like id (writeFiles around.files files) (writeFiles around.files files) := by
  induction tests with
  | nil => exact Agrees.pure rfl
  | cons test tests inductionHypothesis =>
    refine Agrees.bind_same (steady.workspace workspace among (.write test.1 _)) fun written => ?_
    cases written with
    | error failure => exact Agrees.pure rfl
    | ok _ => exact inductionHypothesis

theorem agrees_clearDirectory {workspace : String} (among : workspace ∈ workspaces) :
    let directory := Path.join workspace around.settings.harness.testDirectory
    Agrees like id (clearDirectory around.files directory) (clearDirectory around.files directory)
    := by
  refine Agrees.bind_same (agrees_present steady among List.mem_cons_self) fun present => ?_
  cases present with
  | true => exact steady.workspace workspace among .clear
  | false => exact Agrees.pure rfl

theorem agrees_writeSuite {workspace : String} (among : workspace ∈ workspaces)
    (suite : TestSuite) :
    Agrees like id (writeSuite around.files around.settings.harness workspace suite)
      (writeSuite around.files around.settings.harness workspace suite) := by
  let names := suite.tests.zipIdx.map fun entry =>
    (testFileName entry.1.functionName entry.2, entry.1.testCode)
  have files : suiteFiles (Path.join workspace around.settings.harness.testDirectory) suite =
      names.map fun test =>
        (Path.join (Path.join workspace around.settings.harness.testDirectory) test.1, test.2) := by
    rw [suiteFiles, List.map_map]
    rfl
  refine Agrees.bind_same (agrees_clearDirectory steady among) fun cleared => ?_
  cases cleared with
  | error failure => exact Agrees.pure rfl
  | ok _ =>
    refine Agrees.bind_same (steady.workspace workspace among .make) fun made => ?_
    cases made with
    | error failure => exact Agrees.pure rfl
    | ok _ =>
      dsimp only
      rw [files]
      refine Agrees.bind_same (agrees_writeFiles steady among ((packageMarker, "") :: names))
        fun written => ?_
      cases written <;> exact Agrees.pure rfl

theorem agrees_readReport {workspace : String} (among : workspace ∈ workspaces) :
    let report := Path.join workspace around.settings.harness.reportFile
    Agrees like id (around.files.readText report) (around.files.readText report) := by
  refine Agrees.bind_same (steady.workspace workspace among .read) fun content => ?_
  cases content with
  | error failure => exact Agrees.pure rfl
  | ok content =>
    dsimp only
    cases Text.decodeStrict content <;> exact Agrees.pure rfl

theorem agrees_runTests {workspace : String} (among : workspace ∈ workspaces) (program : String)
    (arguments : List String) (role : RunRole) :
    Agrees like (Except.map TestRun.untimed)
      (runTests around workspace program arguments role)
      (runTests around workspace program arguments role) := by
  refine Agrees.bind (steady.workspace workspace among (.run _ rfl)) fun one other same => ?_
  cases one with
  | finished output elapsedMs =>
    cases other with
    | finished otherOutput otherElapsed =>
      rw [RunnerOutcome.untimed, RunnerOutcome.untimed, RunnerOutcome.finished.injEq] at same
      rw [same.1]
      refine Agrees.bind_same (agrees_readReport steady among) fun report => Agrees.pure ?_
      simp only [Except.map, TestRun.untimed_ofResults]
      rw [untimed_collectResults, ← untimed_collectResults _ _ otherElapsed]
    | failed failure => exact nomatch same
    | timedOut => exact nomatch same
  | failed failure =>
    cases other with
    | finished output elapsedMs => exact nomatch same
    | failed otherFailure =>
      rw [RunnerOutcome.failed.inj same]
      exact Agrees.pure rfl
    | timedOut => exact nomatch same
  | timedOut =>
    cases other with
    | finished output elapsedMs => exact nomatch same
    | failed failure => exact nomatch same
    | timedOut => exact Agrees.pure rfl

/-- Two runs of a suite agree as far as the runs of its tests do. -/
theorem agrees_executeSuite_of_runTests {Taken : Type}
    {taken : Except HarnessFailure TestRun → Taken} {workspace : String}
    (among : workspace ∈ workspaces) (suite : TestSuite) {role : RunRole}
    (tests : ∀ program arguments, Agrees like taken
      (runTests around workspace program arguments role)
      (runTests around workspace program arguments role)) :
    Agrees like taken
      (executeSuite around.files around.runner around.settings.harness workspace suite role)
      (executeSuite around.files around.runner around.settings.harness workspace suite role) := by
  unfold executeSuite
  refine Agrees.bind_same (agrees_presentDirectory steady among) fun present => ?_
  cases present with
  | false => exact Agrees.pure rfl
  | true =>
    rw [if_neg (by decide)]
    split
    · exact Agrees.pure rfl
    · refine Agrees.bind_same (agrees_writeSuite steady among suite) fun written => ?_
      cases written with
      | error failure => exact Agrees.pure rfl
      | ok _ =>
        refine Agrees.bind_same (agrees_present steady among (by simp)) fun reported => ?_
        cases reported with
        | true =>
          exact Agrees.bind (steady.workspace workspace among .forget) fun _ _ _ => tests _ _
        | false => exact tests _ _

/-- A suite gives the same results, up to how long they take. -/
theorem agrees_executeSuite {workspace : String} (among : workspace ∈ workspaces)
    (suite : TestSuite) (role : RunRole) :
    Agrees like (Except.map TestRun.untimed)
      (executeSuite around.files around.runner around.settings.harness workspace suite role)
      (executeSuite around.files around.runner around.settings.harness workspace suite role) :=
  agrees_executeSuite_of_runTests steady among suite fun program arguments =>
    agrees_runTests steady among program arguments role

end

end MigrationGuard
