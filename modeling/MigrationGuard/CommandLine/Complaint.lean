/-
This file writes what the program says when it fails: the failure and, where
others lie behind it, their chain. Every kind of failure has its own words and its
own causes, and a failure that only passes on another one repeats the words of it.
A single cause stands below the failure alone, several ones are numbered from the
nearest to the farthest.
-/

import MigrationGuard.Memory.Database
import MigrationGuard.Session.Documents
import MigrationGuard.Settings.File

namespace MigrationGuard

/-- A failure with the chain of those behind it, as it is shown to a reader. -/
structure Complaint where
  text : String
  /-- The failures behind it, the nearest first. -/
  causes : List String := []
  deriving DecidableEq, Repr

/-- The failures behind a failure of the store. A database names its failure also by its code. -/
def StoreFailure.causes : StoreFailure → List String
  | .files failure => [failure.message]
  | .duplicate column =>
    ["UNIQUE constraint failed: " ++ column, "Error code 1555: A PRIMARY KEY constraint failed"]
  | .notADatabase =>
    ["file is not a database", "Error code 26: File opened that is not a database file"]
  | .cannotOpen path =>
    ["unable to open database file: " ++ path, "Error code 14: Unable to open the database file"]
  | .unreadableVector mismatch => [mismatch.message]

namespace Complaint

/-- The complaint about a document that cannot be read or written, with the failure of its file
behind it. -/
def ofDocument (failure : DocumentFailure) : Complaint :=
  ⟨failure.message, (failure.cause?.map FileFailure.message).toList⟩

/-- The complaint about memory. What the store says stands behind it. -/
def ofMemory (failure : MemoryFailure) : Complaint :=
  ⟨failure.message, match failure with
    | .store inner => inner.message :: inner.causes
    | _ => []⟩

/-- The complaint about the settings of a workspace. -/
def ofSettings (workspace : String) (failure : SettingsFailure) : Complaint :=
  ⟨"failed to load or create workspace config at " ++ (WorkspacePlaces.of workspace).settings,
    failure.message :: match failure with
      | .files inner => [inner.message]
      | .document => []⟩

/-- The complaint about a workspace that is not there. -/
def ofWorkspace (path : String) (failure : FileFailure) : Complaint :=
  ⟨"failed to resolve workspace path " ++ path, [failure.message]⟩

/-! ### Lines -/

/-- The lines of a text with others before the first line and before the rest, so that the rest
stands below the first one. -/
def indented (first others text : String) : List String :=
  match Text.linesOf text with
  | [] => [first]
  | line :: lines => (first ++ line) :: lines.map (others ++ ·)

/-- The lines of a chain. Several causes are numbered, a single one is not. -/
def causeLines : List String → List String
  | [] => []
  | [cause] => indented "    " "    " cause
  | causes => causes.zipIdx.flatMap fun (cause, number) =>
    indented ("    " ++ toString number ++ ": ") "       " cause

/-- The lines of a complaint: what failed, and below it the causes if there are any. -/
def lines (complaint : Complaint) : List String :=
  indented "Error: " "" complaint.text ++
    if complaint.causes.isEmpty then []
    else "" :: "Caused by:" :: causeLines complaint.causes

end Complaint

end MigrationGuard
