/-
This file keeps the settings of a workspace in a file below it. Settings that are
read come in their normal form; where there is no file the defaults apply, and may
be written for whoever wants to edit them. The environment may override the
threshold in every case, also where the file says something else. All files of the
program lie in one directory of the workspace, whose places are named here.
-/

import MigrationGuard.Data.Toml.Document
import MigrationGuard.Files.Access
import MigrationGuard.Settings.Rules

namespace MigrationGuard

open Data

/-! ### Places -/

/-- The places of a workspace where the program keeps its files. -/
structure WorkspacePlaces where
  /-- The directory of the program, which holds all the others. -/
  home : String
  /-- The file of the settings. -/
  settings : String
  /-- The directory of saved runs. -/
  runs : String
  /-- The directory of locks. -/
  locks : String

/-- The places of a workspace, all of them below the workspace itself. -/
def WorkspacePlaces.of (workspace : String) : WorkspacePlaces :=
  let home := Path.join workspace ".bloc"
  ⟨home, Path.join home "config.toml", Path.join home "runs", Path.join home "locks"⟩

/-- The file of the memory of a workspace, whose name is a setting. -/
def memoryPath (workspace databaseFile : String) : String :=
  Path.join (WorkspacePlaces.of workspace).home databaseFile

/-! ### Reading and writing -/

/-- Why settings cannot be had. A file that is not there is no reason. -/
inductive SettingsFailure where
  /-- A file operation failed. -/
  | files (failure : FileFailure)
  /-- The file is no document, or a setting has the wrong shape. -/
  | document
  deriving DecidableEq, Repr

/-- The failure in words, without what lies behind it. -/
def SettingsFailure.message : SettingsFailure → String
  | .files failure => "io error: " ++ failure.message
  | .document => "failed to parse config TOML"

namespace Settings

variable {m : Type → Type} [Monad m]

/-- The settings that a text gives, with the defaults of what it leaves out. -/
def ofText? (text : String) : Option Settings :=
  (Toml.parse? text).bind ofValue?

/-- The text of settings, from which they can be read again. -/
def toText (settings : Settings) : String :=
  Toml.document (toValue settings)

/-- Reads the settings of a workspace in their normal form, with the override applied. -/
def load (files : FileAccess m) (workspace : String) (override : Option String) :
    m (Except SettingsFailure Settings) := do
  let path := (WorkspacePlaces.of workspace).settings
  if ← files.present path then
    match ← files.readText path with
    | .error failure => return .error (.files failure)
    | .ok text => match ofText? text with
      | some settings => return .ok (settings.normalize.withThreshold override)
      | none => return .error .document
  else return .ok (({} : Settings).withThreshold override)

/-- Reads the settings of a workspace and writes the defaults where there is no file. -/
def ensure (files : FileAccess m) (workspace : String) (override : Option String) :
    m (Except SettingsFailure Settings) := do
  let places := WorkspacePlaces.of workspace
  match ← files.makeDirectories places.home with
  | .error failure => return .error (.files failure)
  | .ok () =>
    if ← files.present places.settings then load files workspace override
    else
      match ← files.writeText places.settings ({} : Settings).toText with
      | .error failure => return .error (.files failure)
      | .ok () => return .ok (({} : Settings).withThreshold override)

end Settings

end MigrationGuard
