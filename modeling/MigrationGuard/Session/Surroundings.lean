/-
This file names all that a session needs from the outside: files, a runner of
tests, memory, a receiver of notices and a clock. A session may run without memory
and without a receiver. All of these act in one monad and may answer as they like,
so a theorem about a session holds in every world that it can run in. What goes
wrong with memory is swallowed here, in one place for all stages: a question has
its usual answer, and what memory is told is lost.
-/

import MigrationGuard.Harness.Execution
import MigrationGuard.Session.Notice
import MigrationGuard.Session.State
import MigrationGuard.Workflow.Mining

namespace MigrationGuard

/-- What a session asks of memory. Everything may fail, and no failure of it stops the session. -/
structure SessionMemory (m : Type → Type) where
  /-- Records functions and gives those that changed. -/
  recordFunctions : List CallNode → m (Except MemoryFailure (List ChangedFunction))
  /-- Warnings about changes. -/
  warnings : List PatchChange → m (Except MemoryFailure (List RiskWarning))
  /-- The latest runs, up to a number. -/
  pastRuns : Nat → m (Except MemoryFailure (List RunRecord))
  /-- The drifts that have been seen. -/
  knownDrifts : m (Except MemoryFailure (List DriftRecord))
  recordRun : RunRequest → m (Except MemoryFailure String)
  recordDrift : DriftRequest → m (Except MemoryFailure Int)

/-- The memory of a repository for a session. The clock dates what is recorded. -/
def SessionMemory.ofRepository {m : Type → Type} [Monad m] (memory : RepositoryMemory m)
    (clock : m Int) : SessionMemory m where
  recordFunctions nodes := do memory.recordFunctions nodes (← clock)
  warnings := memory.proactiveWarnings
  pastRuns := memory.pastRuns
  knownDrifts := memory.knownDrifts
  recordRun request := do memory.recordRun request (← clock)
  recordDrift request := do memory.recordDrift request (← clock)

/-- What a session needs from the outside. Nothing else has an influence on it. -/
structure Surroundings (m : Type → Type) where
  settings : Settings
  files : FileAccess m
  /-- What runs tests. -/
  runner : TestRunner m
  /-- Memory, if there is any. -/
  memory : Option (SessionMemory m)
  /-- The receiver of notices, if there is one. -/
  notify : Option (Notice → m Unit)
  /-- The time, in milliseconds since the beginning of 1970. -/
  clock : m Int

namespace Surroundings

variable {m : Type → Type} [Monad m]

/-- The miner of a workspace. Generated tests are no sources. -/
def miner (around : Surroundings m) (root : String) : Miner :=
  (Miner.ofRoot root around.settings.miner).excluding around.settings.harness.testDirectory

/-- Asks memory something. Without memory, and where memory fails, the answer is the usual one. -/
def askMemory {Result : Type} (around : Surroundings m) (usual : Result)
    (ask : SessionMemory m → m (Except MemoryFailure Result)) : m Result :=
  match around.memory with
  | none => return usual
  | some memory => return (← ask memory).toOption.getD usual

/-- Tells memory something. It does not matter whether that succeeds. -/
def tellMemory {Result : Type} (around : Surroundings m)
    (tell : SessionMemory m → m (Except MemoryFailure Result)) : m Unit :=
  match around.memory with
  | none => return ()
  | some memory => do
    let _ ← tell memory

end Surroundings

end MigrationGuard
