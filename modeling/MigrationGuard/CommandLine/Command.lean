/-
This file says what can be asked for on the command line: the analyses of a
workspace, a session from its beginning or from where it rests, the comparison of
stored runs, and the questions to memory. What a command needs stands in its own
constructor, so a command that is there has all that it needs. The options that
every command takes are kept beside it.
-/

import MigrationGuard.Memory.Record
import MigrationGuard.Settings.Basic

namespace MigrationGuard

/-- What can be asked of memory. All but one of these only look, the other one adds rules of the
business. -/
inductive MemoryCommand where
  /-- The latest runs. -/
  | history (limit : Nat)
  | drifts
  /-- The texts that resemble a question. -/
  | search (question : String) (collection : TextCollection) (limit : Nat)
  /-- How much memory holds. -/
  | stats
  /-- Remember rules of the business. -/
  | hint (hints : List String)
  /-- What memory holds on a topic. -/
  | context (topic : String)
  deriving DecidableEq, Repr

/-- What can be asked for, with all that is needed to do it. -/
inductive Command where
  /-- The workflow. -/
  | mine
  | deadCode
  /-- A session from its beginning. -/
  | run (suite : String) (patch migrated : Option String)
  /-- A saved session from where it rests. -/
  | resume (state : String) (migrated : Option String)
  /-- A comparison of stored runs. -/
  | diff (baseline migrated : String)
  /-- Something of memory. -/
  | memory (command : MemoryCommand)
  deriving DecidableEq, Repr

/-- What is asked for, and where, with the options that all commands share. -/
structure Invocation where
  command : Command
  workspace : String
  /-- What the names of mined modules have to contain. -/
  targetModule : Option String
  logFormat : LogFormat
  /-- The threshold of the gate. -/
  riskThreshold : Option Float
  deriving DecidableEq, Repr

end MigrationGuard
