/-
This file holds the workflow graph of a code base: its functions as nodes, the
calls among them as edges, the functions that a program starts from and the paths
that lead from those to side effects. A function is known by its module and name
together. What kind of node it is follows from its name and its own side effects.
The findings about dead code are here too, as they are kept beside the graph.
-/

import MigrationGuard.Workflow.Effect

namespace MigrationGuard

open Data

/-! ### Nodes -/

/-- The names of functions that programs start from, as it is custom. -/
def entrypointNames : List String :=
  ["main", "__main__", "run", "start", "execute", "handle", "process", "app", "application", "cli",
    "entry"]

/-- The name is that of an entrypoint in some letter case. Only ASCII letters have a case that
leads to one of the names. -/
def isEntrypointName (name : String) : Bool :=
  entrypointNames.contains (Text.lowered (Text.trimmed name))

/-- What a node is foremost. A side effect is more than an entrypoint. -/
inductive NodeKind where
  /-- A plain function. -/
  | function
  /-- A function that a program starts from. -/
  | entrypoint
  /-- A function with a side effect of its own. -/
  | sideEffect
  deriving DecidableEq, Repr

instance : Named NodeKind where
  noun := "node kind"
  all := [.function, .entrypoint, .sideEffect]
  name
    | .function => "function"
    | .entrypoint => "entrypoint"
    | .sideEffect => "sideeffect"

instance : OfValue NodeKind := ⟨ofWord? Named.table⟩

/-- The kind of a function. A side effect weighs more than the name of an entrypoint. -/
def NodeKind.classify (name : String) (effects : EffectSet) : NodeKind :=
  if !effects.isEmpty then .sideEffect
  else if isEntrypointName name then .entrypoint
  else .function

/-- A function of the code base, with what is told about it from its own text. -/
structure CallNode where
  /-- The module and the name, joined by a dot. -/
  id : String
  /-- The bare name. -/
  name : String
  module : String
  /-- The line of the definition. -/
  line : Nat
  /-- What the function is foremost. -/
  kind : NodeKind
  /-- Its own side effects. -/
  effects : EffectSet
  /-- The text of its signature. -/
  signature : String
  deriving DecidableEq, Repr

namespace CallNode

/-- The identity of a function: its module and its name, joined by a dot. -/
def idOf (module name : String) : String :=
  module ++ "." ++ name

/-- The node of a function, whose identity and kind follow from the rest. -/
def make (module name : String) (line : Nat) (effects : EffectSet) (signature : String) :
    CallNode :=
  ⟨idOf module name, name, module, line, .classify name effects, effects, signature⟩

/-- The function is named like an entrypoint, whatever its kind. -/
def isEntrypoint (node : CallNode) : Bool :=
  isEntrypointName node.name

/-- The function has a side effect of its own. -/
def hasEffects (node : CallNode) : Bool :=
  !node.effects.isEmpty

end CallNode

instance : ToValue CallNode where
  toValue node := .record [("id", toValue node.id), ("name", toValue node.name),
    ("module", toValue node.module), ("line", toValue node.line), ("kind", toValue node.kind),
    ("side_effects", toValue node.effects), ("signature", toValue node.signature)]

instance : OfValue CallNode where
  ofValue? value := do
    match ← value.slots? ["id", "name", "module", "line", "kind", "side_effects", "signature"] with
    | [id, name, module, line, kind, effects, signature] =>
      return ⟨← id.required, ← name.required, ← module.required, ← line.required, ← kind.required,
        ← effects.required, ← signature.withDefault ""⟩
    | _ => none

/-! ### Edges -/

/-- The circumstances of a call, as the text around it shows them. -/
inductive CallType where
  /-- The call is made whenever the function runs so far. -/
  | direct
  /-- The call stands in a branch. -/
  | conditional
  /-- The call stands in a loop. -/
  | loop
  deriving DecidableEq, Repr

instance : Inhabited CallType := ⟨.direct⟩

instance : Named CallType where
  noun := "call type"
  all := [.direct, .conditional, .loop]
  name
    | .direct => "direct"
    | .conditional => "conditional"
    | .loop => "loop"

instance : OfValue CallType := ⟨ofWord? Named.table⟩

/-- A call from one function to another, both of which are nodes. -/
structure CallEdge where
  /-- The identity of the caller. -/
  source : String
  /-- The identity of the function that is called. -/
  target : String
  /-- The circumstances of the call. -/
  callType : CallType
  deriving DecidableEq, Repr

instance : ToValue CallEdge where
  toValue edge := .record [("source", toValue edge.source), ("target", toValue edge.target),
    ("call_type", toValue edge.callType)]

instance : OfValue CallEdge where
  ofValue? value := do
    match ← value.slots? ["source", "target", "call_type"] with
    | [source, target, callType] =>
      return ⟨← source.required, ← target.required, ← callType.withDefault .direct⟩
    | _ => none

/-! ### Graphs -/

/-- The workflow of a code base, which later stages only look at. -/
structure WorkflowGraph where
  /-- The functions. -/
  nodes : List CallNode
  /-- The calls. -/
  edges : List CallEdge
  /-- The identities of the functions that programs start from. -/
  entrypoints : List String
  /-- Paths from entrypoints to functions with side effects. -/
  sideEffectPaths : List (List String)
  deriving DecidableEq, Repr

instance : Inhabited WorkflowGraph := ⟨⟨[], [], [], []⟩⟩

namespace WorkflowGraph

/-- The first node with an identity, which is the only one in a graph that was built. -/
def node? (graph : WorkflowGraph) (id : String) : Option CallNode :=
  graph.nodes.find? fun node => node.id == id

/-- The number of functions with a side effect of their own. -/
def effectNodeCount (graph : WorkflowGraph) : Nat :=
  graph.nodes.countP CallNode.hasEffects

end WorkflowGraph

instance : ToValue WorkflowGraph where
  toValue graph := .record [("nodes", toValue graph.nodes), ("edges", toValue graph.edges),
    ("entrypoints", toValue graph.entrypoints),
    ("side_effect_paths", toValue graph.sideEffectPaths)]

instance : OfValue WorkflowGraph where
  ofValue? value := do
    match ← value.slots? ["nodes", "edges", "entrypoints", "side_effect_paths"] with
    | [nodes, edges, entrypoints, paths] =>
      return ⟨← nodes.required, ← edges.required, ← entrypoints.required, ← paths.required⟩
    | _ => none

/-! ### Dead code -/

/-- Why a piece of code is thought dead. -/
inductive DeadCodeKind where
  /-- Nothing calls the function. -/
  | zeroCallers
  /-- The function is called, but from nowhere that a program starts from. -/
  | unreachable
  /-- The code stands in a comment. -/
  | commentedBlock
  deriving DecidableEq, Repr

instance : Named DeadCodeKind where
  noun := "dead code kind"
  all := [.zeroCallers, .unreachable, .commentedBlock]
  name
    | .zeroCallers => "zero_callers"
    | .unreachable => "unreachable"
    | .commentedBlock => "commented_block"

instance : OfValue DeadCodeKind := ⟨ofWord? Named.table⟩

/-- A piece of code that is thought dead, be it a function or a block in a comment. -/
structure DeadCodeItem where
  /-- The name of the function or of the block. -/
  name : String
  module : String
  /-- The first line. -/
  line : Nat
  /-- Why it is thought dead. -/
  kind : DeadCodeKind
  /-- The reason in words. -/
  detail : String
  /-- The beginning of the code. -/
  snippet : String
  deriving DecidableEq, Repr

instance : ToValue DeadCodeItem where
  toValue item := .record [("name", toValue item.name), ("module", toValue item.module),
    ("line", toValue item.line), ("kind", toValue item.kind), ("detail", toValue item.detail),
    ("source_snippet", toValue item.snippet)]

instance : OfValue DeadCodeItem where
  ofValue? value := do
    match ← value.slots? ["name", "module", "line", "kind", "detail", "source_snippet"] with
    | [name, module, line, kind, detail, snippet] =>
      return ⟨← name.required, ← module.required, ← line.required, ← kind.required,
        ← detail.required, ← snippet.withDefault ""⟩
    | _ => none

/-- All dead code that was found, counted by its kinds. -/
structure DeadCodeReport where
  /-- The pieces. -/
  items : List DeadCodeItem
  /-- Their number. -/
  total : Nat
  /-- The number of functions that nothing calls. -/
  zeroCallerCount : Nat
  /-- The number of functions that cannot be reached. -/
  unreachableCount : Nat
  commentedBlockCount : Nat
  deriving DecidableEq, Repr

/-- The report on a list of pieces, with the counts that belong to it. -/
def DeadCodeReport.ofItems (items : List DeadCodeItem) : DeadCodeReport :=
  let count := fun kind => items.countP fun item => item.kind == kind
  ⟨items, items.length, count .zeroCallers, count .unreachable, count .commentedBlock⟩

instance : ToValue DeadCodeReport where
  toValue report := .record [("items", toValue report.items), ("total", toValue report.total),
    ("zero_caller_count", toValue report.zeroCallerCount),
    ("unreachable_count", toValue report.unreachableCount),
    ("commented_block_count", toValue report.commentedBlockCount)]

instance : OfValue DeadCodeReport where
  ofValue? value := do
    match ← value.slots? ["items", "total", "zero_caller_count", "unreachable_count",
      "commented_block_count"] with
    | [items, total, zero, unreachable, commented] =>
      return ⟨← items.required, ← total.required, ← zero.required, ← unreachable.required,
        ← commented.required⟩
    | _ => none

end MigrationGuard
