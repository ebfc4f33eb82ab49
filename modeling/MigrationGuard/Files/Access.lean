/-
This file names the file operations that the program performs, for whatever
performs them. A disk in memory is one such performer. Everything else in the
library is written for any monad with these operations, so what is proved of a
session or a memory holds for every way in which files may answer, the failing
ones included. A file holds bytes; whether they are a text is found out where a
text is wanted.
-/

import MigrationGuard.Files.Tree

namespace MigrationGuard

/-- The file operations of a program that runs in a monad. Each one answers or says why it cannot be
done. -/
structure FileAccess (m : Type → Type) where
  /-- What stands at a path. -/
  find : String → m (Except FileFailure FileTree)
  /-- The content of a file. -/
  read : String → m (Except FileFailure (List UInt8))
  /-- Gives a file a content. -/
  write : String → List UInt8 → m (Except FileFailure Unit)
  /-- Makes a directory and those above it. -/
  makeDirectories : String → m (Except FileFailure Unit)
  /-- Removes a directory with all that it holds. -/
  removeDirectory : String → m (Except FileFailure Unit)
  removeFile : String → m (Except FileFailure Unit)
  /-- The absolute path of what stands at a path. -/
  resolve : String → m (Except FileFailure String)

namespace FileAccess

variable {m : Type → Type} [Monad m]

/-- Something stands at a path. Whatever goes wrong on the way counts as nothing being there. -/
def present (files : FileAccess m) (path : String) : m Bool := do
  return (← files.find path).toBool

/-- A directory stands at a path, and not only something else. -/
def presentDirectory (files : FileAccess m) (path : String) : m Bool := do
  match ← files.find path with
  | .ok tree => return tree.isDirectory
  | .error _ => return false

/-- The text of a file. Bytes that are no text are a failure of their own. -/
def readText (files : FileAccess m) (path : String) : m (Except FileFailure String) := do
  match ← files.read path with
  | .ok content => match Text.decodeStrict content with
    | some text => return .ok text
    | none => return .error .notText
  | .error failure => return .error failure

/-- Gives a file a text, in place of what it held. -/
def writeText (files : FileAccess m) (path text : String) : m (Except FileFailure Unit) :=
  files.write path (Text.encode text)

end FileAccess

/-! ### Disks in memory -/

namespace Disk

variable {m : Type → Type} [Monad m] [MonadStateOf Disk m]

/-- Performs a change of the disk, which stays as it was where the change fails. -/
def change (update : Disk → Except FileFailure Disk) : m (Except FileFailure Unit) := do
  match update (← get) with
  | .ok disk =>
    set disk
    return .ok ()
  | .error failure => return .error failure

/-- The file operations on a disk that is part of the state. -/
def access : FileAccess m where
  find path := return (← getThe Disk).find path
  read path := return (← getThe Disk).read path
  write path content := change fun disk => disk.write path content
  makeDirectories path := do
    let (disk, failure) := (← getThe Disk).makeDirectories path
    set disk
    return match failure with
      | none => .ok ()
      | some failure => .error failure
  removeDirectory path := change fun disk => disk.removeDirectory path
  removeFile path := change fun disk => disk.removeFile path
  resolve path := return (← getThe Disk).resolve path

end Disk

end MigrationGuard
