/-
This file runs a suite in a workspace: it writes the tests into a directory of
their own, which is made anew, lets a runner run them and reads what the runner
left behind. A runner that fails its tests is no failure of the run. What has to
be there is checked first, in the order in which it is needed, so every failure
names the first thing that went wrong. A report of an earlier run is removed
before the runner starts, so that it is not taken for the report of this one.
-/

import MigrationGuard.Files.Access
import MigrationGuard.Harness.Report
import MigrationGuard.Harness.SuiteFiles
import MigrationGuard.Settings.Basic

namespace MigrationGuard

/-! ### Failures -/

/-- Why a suite cannot be run. A suite whose tests fail is not among the reasons. -/
inductive HarnessFailure where
  /-- The settings name no runner. -/
  | emptyCommand
  /-- There is no such workspace. -/
  | missingWorkspace (path : String)
  | writeTests (directory : String) (failure : FileFailure)
  /-- The runner cannot be started. -/
  | launch (program : String) (failure : FileFailure)
  /-- The runner took too long. -/
  | timeout (seconds : Nat)
  deriving DecidableEq, Repr

/-- The failure in words, with the path or the program that it is about. -/
def HarnessFailure.message : HarnessFailure → String
  | .emptyCommand => "harness command is empty"
  | .missingWorkspace path => "workspace does not exist: " ++ path
  | .writeTests directory failure =>
    "failed to write tests into " ++ directory ++ ": " ++ failure.message
  | .launch program failure =>
    "failed to launch test runner \x60" ++ program ++ "\x60: " ++ failure.message
  | .timeout seconds => "test runner timed out after " ++ toString seconds ++ "s"

/-! ### Runners -/

/-- What a runner is asked to do, and within which time. -/
structure RunnerCall where
  program : String
  arguments : List String
  /-- The directory that it runs in. -/
  workspace : String
  /-- How long it may take, in seconds. -/
  timeoutSeconds : Nat
  deriving DecidableEq, Repr

/-- What becomes of a runner. Whether its tests passed is told by its output or its report. -/
inductive RunnerOutcome where
  /-- It ended, with this output and after this time. -/
  | finished (output : String) (elapsedMs : Float)
  /-- It could not be started. -/
  | failed (failure : FileFailure)
  /-- It took too long. -/
  | timedOut
  deriving Repr

/-- What runs tests: it may do anything in its monad, and tells what became of it. -/
abbrev TestRunner (m : Type → Type) := RunnerCall → m RunnerOutcome

/-- The call that runs the tests of a workspace. -/
def runnerCall (settings : HarnessSettings) (program : String) (arguments : List String)
    (workspace : String) : RunnerCall :=
  { program
    arguments := arguments ++ [settings.testDirectory, "--json-report",
      "--json-report-file=" ++ Path.join workspace settings.reportFile, "--tb=short", "-q",
      "--timeout=" ++ toString settings.testTimeoutSeconds]
    workspace
    timeoutSeconds := settings.timeoutSeconds }

/-! ### Writing -/

/-- The file that makes a directory a package. It holds nothing. -/
def packageMarker : String := "__init__.py"

/-- The files of a suite: path and text. The place of a test stands in the name of its file. -/
def suiteFiles (directory : String) (suite : TestSuite) : List (String × String) :=
  suite.tests.zipIdx.map fun (test, place) =>
    (Path.join directory (testFileName test.functionName place), test.testCode)

variable {m : Type → Type} [Monad m]

/-- Writes files in order up to the first failure. -/
def writeFiles (files : FileAccess m) : List (String × String) → m (Except FileFailure Unit)
  | [] => return .ok ()
  | (path, text) :: others => do
    match ← files.writeText path text with
    | .ok () => writeFiles files others
    | .error failure => return .error failure

/-- Removes a directory if something stands at its path, so that it can be made anew. -/
def clearDirectory (files : FileAccess m) (directory : String) : m (Except FileFailure Unit) := do
  if ← files.present directory then files.removeDirectory directory else return .ok ()

/-- Writes a suite into a workspace, in place of the one before, and gives the paths of the
tests. -/
def writeSuite (files : FileAccess m) (settings : HarnessSettings) (workspace : String)
    (suite : TestSuite) : m (Except HarnessFailure (List String)) := do
  let directory := Path.join workspace settings.testDirectory
  match ← clearDirectory files directory with
  | .error failure => return .error (.writeTests directory failure)
  | .ok () => match ← files.makeDirectories directory with
    | .error failure => return .error (.writeTests directory failure)
    | .ok () =>
      let tests := suiteFiles directory suite
      match ← writeFiles files ((Path.join directory packageMarker, "") :: tests) with
      | .error failure => return .error (.writeTests directory failure)
      | .ok () => return .ok (tests.map Prod.fst)

/-! ### Running -/

/-- Runs a suite in a workspace and gives the run, or the first reason why it could not be run. -/
def executeSuite (files : FileAccess m) (runner : TestRunner m) (settings : HarnessSettings)
    (workspace : String) (suite : TestSuite) (role : RunRole) :
    m (Except HarnessFailure TestRun) := do
  if !(← files.presentDirectory workspace) then return .error (.missingWorkspace workspace)
  else match settings.command with
    | [] => return .error .emptyCommand
    | program :: arguments => match ← writeSuite files settings workspace suite with
      | .error failure => return .error failure
      | .ok _ =>
        let report := Path.join workspace settings.reportFile
        if ← files.present report then
          let _ ← files.removeFile report
        match ← runner (runnerCall settings program arguments workspace) with
        | .failed failure => return .error (.launch program failure)
        | .timedOut => return .error (.timeout settings.timeoutSeconds)
        | .finished output elapsedMs =>
          let text := (← files.readText report).toOption
          return .ok (.ofResults role (collectResults text output elapsedMs))

end MigrationGuard
