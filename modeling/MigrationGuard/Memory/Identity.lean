/-
This file derives the names under which repositories, sessions and records are
kept. Each is the beginning of a hash of what it stands for, so the same things
have the same name in every program that asks, and names stay short enough to be
read. What a session records carries the time in its name, so that two records of
one session are told apart as long as they are not made at the same time.
-/

import MigrationGuard.Hash.Blake3
import MigrationGuard.Hash.Sha256
import MigrationGuard.Path

namespace MigrationGuard

/-- The first digits of a content hash, which are enough to tell things apart. -/
def shortHash (text : String) : String :=
  Text.truncate (contentHash text) 12

/-- The identity of the repository at an absolute path. Both kinds of slash count as one. -/
def repositoryId (path : String) : String :=
  Text.truncate (Hash.Sha256.hashText (Path.normalizeSlashes path)) 16

/-- The identity of a session that begins at the given time in a repository. -/
def sessionId (repository : String) (now : Int) : String :=
  shortHash (repository ++ ":" ++ toString now)

/-- The identity of what a session records at the given time. Its kind stands in front. -/
def recordId (kind repository session : String) (now : Int) : String :=
  kind ++ "_" ++ shortHash (repository ++ ":" ++ session ++ ":" ++ toString now)

end MigrationGuard
