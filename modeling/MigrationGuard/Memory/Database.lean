/-
This file connects memory with the outside: the place where the store is kept, the
index that finds texts by their meaning, and what embeds texts. A store in a file
is read before and written after every operation, so several programs can share
it. All of these are records of operations in a monad, which may fail as they
like, and the rest of memory is written for any of them. The index may be the
store itself or a service of its own, and texts are embedded by hashing or by
asking a model.
-/

import MigrationGuard.Files.Access
import MigrationGuard.Memory.Embedding
import MigrationGuard.Memory.Kept
import MigrationGuard.Settings.Rules

namespace MigrationGuard

open Data

/-! ### Failures -/

/-- Why memory cannot do what it is asked for. Only the first reason is the fault of whoever asks.
-/
inductive MemoryFailure where
  /-- The request makes no sense. -/
  | invalidInput (reason : String)
  /-- The store failed, for a reason of its own. -/
  | store (failure : StoreFailure)
  /-- The embedding model could not be asked, or its answer is no value. -/
  | request
  /-- The answer of the embedding model holds no vector. -/
  | embedding (reason : String)
  deriving DecidableEq, Repr

/-- The failure in words, as it is printed and passed on. -/
def MemoryFailure.message : MemoryFailure → String
  | .invalidInput reason => "invalid input: " ++ reason
  | .store failure => "store error: " ++ failure.message
  | .request => "request failed"
  | .embedding reason => "invalid embedding response: " ++ reason

/-! ### Databases -/

/-- The place where a store is kept. Between two operations others may have written there. -/
structure Database (m : Type → Type) where
  /-- The store as it is now. -/
  load : m (Except StoreFailure Store)
  /-- Keeps a store in place of the one before. -/
  save : Store → m (Except StoreFailure Unit)

namespace Database

variable {m : Type → Type} [Monad m]

/-- Looks something up in the store as it is now, and writes nothing. -/
def query {Result : Type} (database : Database m) (look : Store → Except StoreFailure Result) :
    m (Except StoreFailure Result) := do
  match ← database.load with
  | .ok store => return look store
  | .error failure => return .error failure

/-- Performs a write. A write that is refused changes nothing. -/
def update {Result : Type} (database : Database m)
    (write : Store → Except StoreFailure (Store × Result)) : m (Except StoreFailure Result) := do
  match ← database.load with
  | .error failure => return .error failure
  | .ok store => match write store with
    | .error failure => return .error failure
    | .ok (next, result) => match ← database.save next with
      | .error failure => return .error failure
      | .ok () => return .ok result

/-- Reads what is kept in a file whose directory is there. -/
def loadFile (files : FileAccess m) (path : String) : m (Except StoreFailure KeptStore) := do
  if Text.endsWith path "/" then return .error (.cannotOpen path)
  match ← files.read path with
  | .error .notFound => return .ok .empty
  | .error .isADirectory => return .error (.cannotOpen path)
  | .error failure => return .error (.files failure)
  | .ok content => return match KeptStore.ofContent? content with
    | some kept => .ok kept
    | none => .error .notADatabase

/-- A store in a file. The directories above it are made when they are missing. -/
def ofFile (files : FileAccess m) (path : String) : Database m where
  load := do
    match (Path.parent? path).filter (· != "") with
    | none => return (← loadFile files path).map KeptStore.store
    | some directory => match ← files.makeDirectories directory with
      | .error failure => return .error (.files failure)
      | .ok () => return (← loadFile files path).map KeptStore.store
  save store := do
    match (← loadFile files path).bind fun kept => kept.replace store with
    | .error failure => return .error failure
    | .ok next => match ← files.writeText path next.content with
      | .error failure => return .error (.files failure)
      | .ok () => return .ok ()

end Database

/-! ### Locks -/

/-- The file of the lock of a repository. -/
def lockPath (directory repository : String) : String :=
  Path.join directory (repository ++ ".lock")

/-- Takes the lock of a repository, whose file is made when it is missing. -/
def acquireLock {m : Type → Type} [Monad m] (files : FileAccess m) (directory repository : String) :
    m (Except StoreFailure Unit) := do
  match ← files.makeDirectories directory with
  | .error failure => return .error (.files failure)
  | .ok () =>
    let path := lockPath directory repository
    match ← files.find path with
    | .ok (.directory _) => return .error (.files .isADirectory)
    | .ok _ => return .ok ()
    | .error _ => match ← files.write path [] with
      | .error failure => return .error (.files failure)
      | .ok () => return .ok ()

/-! ### Indices and embedders -/

/-- What finds texts by their meaning. It need not be kept in the store. -/
structure TextIndex (m : Type → Type) where
  /-- Puts entries into a collection of a repository. -/
  put : String → TextCollection → List TextEntry → m (Except StoreFailure Unit)
  /-- The entries of a collection that are most similar to a vector, up to a limit. -/
  search : String → TextCollection → Embedding → Nat → m (Except StoreFailure (List TextHit))
  /-- The number of entries of a collection. -/
  count : String → TextCollection → m (Except StoreFailure Nat)

/-- The index of the texts in a store. Without entries nothing is written. -/
def TextIndex.ofDatabase {m : Type → Type} [Monad m] (database : Database m) : TextIndex m where
  put repository collection entries := do
    if entries.isEmpty then return .ok ()
    else database.update fun store => .ok (store.putTexts repository collection entries, ())
  search repository collection query limit :=
    database.query fun store => store.search repository collection query limit
  count repository collection :=
    database.query fun store => .ok (store.textsOf repository collection).length

/-- What embeds texts. The same text need not have the same embedding twice. -/
structure Embedder (m : Type → Type) where
  name : String
  embed : String → m (Except MemoryFailure Embedding)

namespace Embedder

variable {m : Type → Type} [Monad m]

/-- Embeds by hashing, which needs nobody and never fails. -/
def hashed : Embedder m :=
  ⟨Named.name EmbeddingKind.hashed, fun text => return .ok (hashedEmbedding text)⟩

/-- The embedding that the text of an answer gives. -/
def readAnswer (answer : String) : Except MemoryFailure Embedding :=
  match Json.parseWhole? answer with
  | none => .error .request
  | some value => match embeddingOfAnswer value with
    | .ok vector => .ok vector
    | .error fault => .error (.embedding fault.message)

/-- Embeds by asking a model. Whoever asks gets the question as text and may have no answer. -/
def asking (model : Option String) (ask : String → m (Option String)) : Embedder m :=
  ⟨Named.name EmbeddingKind.ollama, fun text => do
    match ← ask (Json.compact (embeddingQuestion (model.getD Settings.usualModel) text)) with
    | some answer => return readAnswer answer
    | none => return .error .request⟩

end Embedder

end MigrationGuard
