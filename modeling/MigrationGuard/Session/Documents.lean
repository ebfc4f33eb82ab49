/-
This file reads and writes the documents of a session: suites, patches, stored
runs and saved sessions. A saved session lies in the workspace under its identity.
All of them are read in the same way, and what goes wrong names the kind of
document and its path, with the failure of the file behind it. A stored run may
have either of two shapes; which one it is can be told from the text alone.
-/

import MigrationGuard.Session.State
import MigrationGuard.Settings.File

namespace MigrationGuard

open Data

/-! ### Failures -/

/-- Why a document cannot be had or kept. The path is the one that was asked for. -/
inductive DocumentFailure where
  /-- The file cannot be read. -/
  | unreadable (kind path : String) (failure : FileFailure)
  /-- The file holds no such document. -/
  | malformed (kind path : String)
  /-- The directory of saved sessions cannot be made. -/
  | noDirectory (path : String) (failure : FileFailure)
  /-- The session cannot be written. -/
  | unwritable (path : String) (failure : FileFailure)
  deriving DecidableEq, Repr

namespace DocumentFailure

/-- The failure in words, without what lies behind it. -/
def message : DocumentFailure → String
  | .unreadable kind path _ => "failed to read " ++ kind ++ " " ++ path
  | .malformed kind path => "failed to parse " ++ kind ++ " " ++ path
  | .noDirectory path _ => "failed to create runs directory " ++ path
  | .unwritable path _ => "failed to write run state " ++ path

/-- What lies behind the failure, if a file operation does. -/
def cause? : DocumentFailure → Option FileFailure
  | .unreadable _ _ failure => some failure
  | .malformed _ _ => none
  | .noDirectory _ failure => some failure
  | .unwritable _ failure => some failure

/-- The failure in words with what lies behind it. -/
def fullMessage (failure : DocumentFailure) : String :=
  Text.joined ": " (failure.message :: (failure.cause?.map FileFailure.message).toList)

end DocumentFailure

variable {m : Type → Type} [Monad m]

/-! ### Documents -/

/-- Reads a document of a kind. A text that does not parse and a file that cannot be read are told
apart. -/
def readDocument {Result : Type} (parse : String → Option Result) (files : FileAccess m)
    (kind path : String) : m (Except DocumentFailure Result) := do
  match ← files.readText path with
  | .error failure => return .error (.unreadable kind path failure)
  | .ok text => return match parse text with
    | some document => .ok document
    | none => .error (.malformed kind path)

/-- Reads a document that is written field by field. -/
def readRecord (Result : Type) [OfValue Result] (files : FileAccess m) (kind path : String) :
    m (Except DocumentFailure Result) :=
  readDocument (fun text => (Json.parse? text).bind ofValue?) files kind path

/-- The run that a value stores: a full run as it was, or the run of a list of results. -/
def storedRun? (role : RunRole) (value : Value) : Option TestRun :=
  (ofValue? value : Option TestRun).orElse fun _ =>
    (ofValue? value : Option (List TestResult)).map (TestRun.ofResults role)

/-- Reads a stored run. As both shapes are tried, the whole text has to be readable, also what
neither of them uses. -/
def readRun (files : FileAccess m) (path : String) (role : RunRole) :
    m (Except DocumentFailure TestRun) :=
  readDocument (fun text => (Json.parseWhole? text).bind (storedRun? role)) files "test run" path

/-! ### Saved sessions -/

/-- The file of a saved session, which is named after the session. -/
def Session.savedPath (session : Session) : String :=
  Path.join (WorkspacePlaces.of session.repository).runs (session.id ++ ".json")

/-- Saves a session and gives the path. Its directory is made if it is missing. -/
def saveSession (files : FileAccess m) (session : Session) :
    m (Except DocumentFailure String) := do
  let directory := (WorkspacePlaces.of session.repository).runs
  match ← files.makeDirectories directory with
  | .error failure => return .error (.noDirectory directory failure)
  | .ok () => match ← files.writeText session.savedPath session.toText with
    | .error failure => return .error (.unwritable session.savedPath failure)
    | .ok () => return .ok session.savedPath

/-- Loads a saved session from wherever it lies. -/
def loadSession (files : FileAccess m) (path : String) : m (Except DocumentFailure Session) :=
  readDocument Session.ofText? files "run state" path

end MigrationGuard
