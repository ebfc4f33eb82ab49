/-
This file holds the changes that a migration makes and the warnings that memory
raises about them. A patch is a list of changes, each about one place of the code
and described in words, which is all that memory has to compare with what it
knows. Where no patch is given yet, every function of the workflow counts as a
change, so that the risk can be judged before the migration has been written.
-/

import MigrationGuard.Behavior.Drift
import MigrationGuard.Workflow.Graph

namespace MigrationGuard

open Data

/-! ### Changes -/

/-- What kind of change a migration makes, as whoever planned it says. -/
inductive ChangeType where
  /-- The syntax changes. -/
  | syntactic
  /-- An interface changes. -/
  | interface
  /-- The meaning changes. -/
  | semantic
  | deadCode
  deriving DecidableEq, Repr

namespace ChangeType

instance : Named ChangeType where
  noun := "change type"
  all := [.syntactic, .interface, .semantic, .deadCode]
  name
    | .syntactic => "syntax"
    | .interface => "api"
    | .semantic => "semantic"
    | .deadCode => "dead_code"

instance : OfValue ChangeType := ⟨ofWord? (Named.table ++ [("dead-code", .deadCode)])⟩

end ChangeType

/-- A change to one place of the code, described in words. -/
structure PatchChange where
  /-- The file or module that changes. -/
  file : String
  /-- What kind of change it is. -/
  changeType : ChangeType
  /-- The change in words. -/
  description : String
  /-- The line that changes. -/
  line : Nat
  deriving DecidableEq, Repr

instance : ToValue PatchChange where
  toValue change := .record [("file", toValue change.file),
    ("change_type", toValue change.changeType),
    ("description", toValue change.description), ("line", toValue change.line)]

instance : OfValue PatchChange where
  ofValue? value := do
    match ← value.slots? ["file", "change_type", "description", "line"] with
    | [file, changeType, description, line] =>
      return ⟨← file.required, ← changeType.required, ← description.required, ← line.withDefault 0⟩
    | _ => none

/-- The changes of a migration, in the order in which they are planned. -/
structure MigrationPatch where
  /-- The changes in order. -/
  changes : List PatchChange
  deriving DecidableEq, Repr

instance : ToValue MigrationPatch where
  toValue patch := .record [("changes", toValue patch.changes)]

instance : OfValue MigrationPatch where
  ofValue? value := do
    match ← value.slots? ["changes"] with
    | [changes] => return ⟨← changes.required⟩
    | _ => none

/-- One change for every function of a graph. It stands in where no patch is known yet. -/
def syntheticChanges (graph : WorkflowGraph) : List PatchChange :=
  graph.nodes.map fun node =>
    let effects :=
      if node.effects.isEmpty then "no side effects" else Text.joined ", " node.effects.names
    let description := node.name ++ " (" ++ Named.name node.kind ++ "): " ++ effects
    ⟨node.module, .semantic, description, node.line⟩

/-! ### Warnings -/

/-- Where a warning comes from. -/
inductive WarningSource where
  /-- A stored drift whose function is named by the change. -/
  | memory
  /-- A stored text that resembles the change. -/
  | semantic
  deriving DecidableEq, Repr

instance : Named WarningSource where
  noun := "warning source"
  all := [.memory, .semantic]
  name
    | .memory => "memory"
    | .semantic => "semantic"

instance : OfValue WarningSource := ⟨ofWord? Named.table⟩

/-- A warning about a change, with what happened when something like it was changed before. -/
structure RiskWarning where
  /-- Where it comes from. -/
  source : WarningSource
  /-- The function that it is about. -/
  function : String
  /-- How bad the remembered drift was. -/
  severity : DriftSeverity
  /-- The warning in words. -/
  message : String
  /-- How often the drift was seen. -/
  timesSeen : Nat
  deriving DecidableEq, Repr

instance : ToValue RiskWarning where
  toValue warning := .record [("source", toValue warning.source),
    ("function", toValue warning.function), ("severity", toValue warning.severity),
    ("message", toValue warning.message), ("times_seen", toValue warning.timesSeen)]

/-- A counter of thirty-two bits. A value that does not fit cannot be read. -/
structure ShortCount where
  /-- The count. -/
  value : Nat

instance : OfValue ShortCount := ⟨fun value => (value.toNatBelow? (Nat.pow 2 32)).map ShortCount.mk⟩

instance : OfValue RiskWarning where
  ofValue? value := do
    match ← value.slots? ["source", "function", "severity", "message", "times_seen"] with
    | [source, function, severity, message, timesSeen] =>
      return ⟨← source.required, ← function.required, ← severity.required, ← message.required,
        (← timesSeen.withDefault (ShortCount.mk 0)).value⟩
    | _ => none

end MigrationGuard
