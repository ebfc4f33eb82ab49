/-
This file finds functions that seem dead in a workflow graph: those that nothing
calls, and those that are called but from nowhere that leads back to an
entrypoint. An entrypoint is never dead, and no function is reported twice.
Reachability is searched once from all entrypoints together. Calls that the graph
does not know, such as those from outside of the code base, are not seen here, so
what is reported only seems dead.
-/

import MigrationGuard.Workflow.Build

namespace MigrationGuard

/-- The report on a function, with the reason in words and without a snippet. -/
def deadFunction (node : CallNode) (kind : DeadCodeKind) (reason : String) : DeadCodeItem :=
  ⟨node.name, node.module, node.line, kind, "Function '" ++ node.name ++ "' " ++ reason, ""⟩

namespace WorkflowGraph

/-- The calls among the nodes of the graph, as a graph that can be searched. -/
def digraph (graph : WorkflowGraph) : Digraph :=
  identityGraph graph.nodes graph.edges

/-- The node is listed as an entrypoint, by its identity. -/
def lists (graph : WorkflowGraph) (node : CallNode) : Bool :=
  graph.entrypoints.contains node.id

/-- The nodes that nothing calls, entrypoints left out, in the order of the graph. -/
def uncalledNodes (graph : WorkflowGraph) : List CallNode :=
  let index := graph.digraph
  graph.nodes.filter fun node => !graph.lists node && index.inDegreeOf? node.id == some 0

/-- The indices of the nodes that entrypoints lead to, their own included. -/
def liveIndices (graph : WorkflowGraph) : List Nat :=
  let index := graph.digraph
  index.reachableFrom (graph.entrypoints.filterMap index.indexOf?)

/-- The nodes that no entrypoint leads to and that are not among those that nothing calls. -/
def strandedNodes (graph : WorkflowGraph) : List CallNode :=
  let index := graph.digraph
  let live := graph.liveIndices
  let reported := graph.uncalledNodes.map fun node => (node.module, node.name)
  graph.nodes.filter fun node =>
    !graph.lists node && !reported.contains (node.module, node.name) &&
      !(index.indexOf? node.id).any live.contains

/-- The functions that seem dead: first those that nothing calls, then those that cannot be reached.
-/
def deadCode (graph : WorkflowGraph) : List DeadCodeItem :=
  (graph.uncalledNodes.map fun node =>
    deadFunction node .zeroCallers "has no callers in the call graph") ++
  graph.strandedNodes.map fun node =>
    deadFunction node .unreachable "is unreachable from any entrypoint"

end WorkflowGraph

end MigrationGuard
