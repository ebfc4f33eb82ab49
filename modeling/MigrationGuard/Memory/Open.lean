/-
This file opens the memory of a repository. A repository is known by its absolute
path where it exists, and by the path that was given where it does not. So the
same directory is the same repository from wherever it is asked for. Its store,
its lock and the other parts are found from that path and the settings; nothing is
read or made before memory is used.
-/

import MigrationGuard.Decimal.Narrowing
import MigrationGuard.Memory.Repository
import MigrationGuard.Settings.File

namespace MigrationGuard.RepositoryMemory

variable {m : Type → Type} [Monad m]

/-- The path by which a repository is known, be it there or not. -/
def knownPath (files : FileAccess m) (root : String) : m String := do
  return (← files.resolve root).toOption.getD root

/-- The memory of a repository with its store in a file, a directory for its lock and the other
parts as given. -/
def ofParts (files : FileAccess m) (root databasePath lockDirectory : String) (index : TextIndex m)
    (embedder : Embedder m) (minSimilarity : Float32) : m (RepositoryMemory m) := do
  let path ← knownPath files root
  let id := repositoryId path
  return { path := Path.normalizeSlashes path
           id
           lock := acquireLock files lockDirectory id
           database := .ofFile files databasePath
           index
           embedder
           minSimilarity }

/-- The embedder that the settings ask for, with what they leave out filled in. -/
def embedderOf (settings : MemorySettings) (ask : String → String → m (Option String)) :
    Embedder m :=
  match settings.embedding with
  | .hashed => .hashed
  | .ollama => .asking settings.model (ask (settings.endpoint.getD Settings.usualEndpoint))

/-- The memory of a workspace as its settings describe it, with texts kept in the store. -/
def ofWorkspace (files : FileAccess m) (root : String) (settings : MemorySettings)
    (ask : String → String → m (Option String)) : m (RepositoryMemory m) :=
  let path := memoryPath root settings.databaseFile
  ofParts files root path (WorkspacePlaces.of root).locks
    (.ofDatabase (.ofFile files path)) (embedderOf settings ask)
    (Decimal.narrowed settings.minSimilarity)

end MigrationGuard.RepositoryMemory
