/-
This file says which functions of a workflow graph are reported as dead. Every
function is an entrypoint, or nothing calls it, or it is called but no walk from
an entrypoint leads to it, or it is alive; the two middle kinds are reported, each
function once. How a function stands in a graph is told by walks along its edges,
independently of how the report is made, and each function stands in just one way.
The report lists the functions that nothing calls before those that no walk leads
to, both in the order of the nodes. That none is reported twice needs that no two
nodes have one module and name; edges and entrypoints may name functions that are
no nodes, and these count for nothing.
-/

import MigrationGuard.Proofs.Workflow.Index
import MigrationGuard.Proofs.Workflow.Reachability

namespace MigrationGuard

namespace WorkflowGraph

/-! ### How functions stand -/

/-- A walk along edges between nodes leads to the function from a listed entrypoint. -/
def IsLive (graph : WorkflowGraph) (id : String) : Prop :=
  ∃ entry ∈ graph.entrypoints, Relation.ReflTransGen graph.Calls entry id

/-- The ways in which a function can stand in a graph, two of which are those of dead functions. -/
inductive Standing where
  /-- It is listed as an entrypoint. -/
  | entrypoint
  /-- No node calls it. -/
  | uncalled
  /-- It is called, but from nowhere that an entrypoint leads to. -/
  | stranded
  /-- It is called, and an entrypoint leads to it. -/
  | live

/-- The function stands in the graph in the given way, as the edges and the entrypoints tell. -/
inductive Stands (graph : WorkflowGraph) (id : String) : Standing → Prop
  | entrypoint (listed : id ∈ graph.entrypoints) : Stands graph id .entrypoint
  | uncalled (unlisted : id ∉ graph.entrypoints) (alone : ∀ caller, ¬ graph.Calls caller id) :
    Stands graph id .uncalled
  | stranded (unlisted : id ∉ graph.entrypoints) {caller : String} (called : graph.Calls caller id)
    (unreached : ¬ graph.IsLive id) : Stands graph id .stranded
  | live (unlisted : id ∉ graph.entrypoints) {caller : String} (called : graph.Calls caller id)
    (reached : graph.IsLive id) : Stands graph id .live

/-- A function stands in just one way, so the four ways make up all functions. -/
theorem existsUnique_stands (graph : WorkflowGraph) (id : String) :
    ∃! standing, graph.Stands id standing := by
  have exists_stands : ∃ standing, graph.Stands id standing := by
    by_cases listed : id ∈ graph.entrypoints
    · exact ⟨_, .entrypoint listed⟩
    by_cases called : ∃ caller, graph.Calls caller id
    · obtain ⟨caller, called⟩ := called
      by_cases reached : graph.IsLive id
      · exact ⟨_, .live listed called reached⟩
      · exact ⟨_, .stranded listed called reached⟩
    · exact ⟨_, .uncalled listed fun caller isCaller => called ⟨caller, isCaller⟩⟩
  obtain ⟨standing, stands⟩ := exists_stands
  refine ⟨standing, stands, fun other otherStands => ?_⟩
  -- Two different ways contradict each other in what they say of the list, of the callers or of
  -- the walks.
  cases stands <;> cases otherStands <;> first
    | rfl
    | contradiction
    | exact absurd ‹graph.Calls _ id› (‹∀ caller, ¬ graph.Calls caller id› _)

/-! ### Functions that nothing calls -/

theorem lists_iff {graph : WorkflowGraph} {node : CallNode} :
    graph.lists node ↔ node.id ∈ graph.entrypoints :=
  List.contains_iff_mem

section
variable {graph : WorkflowGraph} (distinct : graph.ids.Nodup)
include distinct

theorem inDegreeOf?_eq_zero_iff {id : String} (known : id ∈ graph.ids) :
    graph.digraph.inDegreeOf? id = some 0 ↔ ∀ caller, ¬ graph.Calls caller id := by
  have wellFormed := graph.wellFormed_digraph
  rw [← keys_digraph distinct] at known
  obtain ⟨index, found⟩ := wellFormed.exists_indexOf? known
  have none := wellFormed.inDegree_eq_zero_iff (wellFormed.lt_of_indexOf? found)
  rw [wellFormed.key_of_indexOf? found] at none
  rw [Digraph.inDegreeOf?, found, Option.map_some, Option.some.injEq, none]
  exact forall_congr' fun caller => not_congr mem_namedEdges_digraph

theorem mem_uncalledNodes_iff {node : CallNode} :
    node ∈ graph.uncalledNodes ↔ node ∈ graph.nodes ∧ graph.Stands node.id .uncalled := by
  rw [uncalledNodes, List.mem_filter]
  refine and_congr_right fun member => ?_
  have known : node.id ∈ graph.ids := List.mem_map_of_mem member
  rw [Bool.and_eq_true, Bool.not_eq_true', ← Bool.not_eq_true, lists_iff, beq_iff_eq,
    inDegreeOf?_eq_zero_iff distinct known]
  constructor
  · exact fun ⟨unlisted, alone⟩ => .uncalled unlisted alone
  · intro stands
    cases stands with
    | uncalled unlisted alone => exact ⟨unlisted, alone⟩

/-! ### Functions that no entrypoint leads to -/

omit distinct in
theorem namesReach_digraph {entry id : String} :
    graph.digraph.NamesReach entry id ↔ Relation.ReflTransGen graph.Calls entry id := by
  have same : (fun source target => (source, target) ∈ graph.digraph.namedEdges) = graph.Calls := by
    funext caller callee
    exact propext mem_namedEdges_digraph
  rw [Digraph.NamesReach, same]

theorem mem_liveIndices_iff {id : String} (known : id ∈ graph.ids) :
    (graph.digraph.indexOf? id).any graph.liveIndices.contains ↔ graph.IsLive id := by
  have wellFormed := graph.wellFormed_digraph
  rw [← keys_digraph distinct] at known
  obtain ⟨index, found⟩ := wellFormed.exists_indexOf? known
  rw [found, Option.any_some, List.contains_iff_mem, liveIndices,
    Digraph.mem_reachableFrom_iff wellFormed, IsLive]
  constructor
  · rintro ⟨root, member, reaches⟩
    obtain ⟨entry, listed, foundEntry⟩ := List.mem_filterMap.mp member
    have reach := Digraph.namesReach_of_reaches wellFormed reaches
    rw [wellFormed.key_of_indexOf? foundEntry, wellFormed.key_of_indexOf? found,
      namesReach_digraph] at reach
    exact ⟨entry, listed, reach⟩
  · rintro ⟨entry, listed, walk⟩
    -- An entrypoint that is not a node leads to no node.
    have knownEntry : entry ∈ graph.digraph.keys := by
      rcases walk.cases_head with same | ⟨next, calls, -⟩
      · rwa [same]
      · rw [keys_digraph distinct]
        exact calls.1
    obtain ⟨root, foundEntry⟩ := wellFormed.exists_indexOf? knownEntry
    refine ⟨root, List.mem_filterMap.mpr ⟨entry, listed, foundEntry⟩, ?_⟩
    rw [Digraph.reaches_iff_namesReach wellFormed (wellFormed.lt_of_indexOf? foundEntry)
      (wellFormed.lt_of_indexOf? found), wellFormed.key_of_indexOf? foundEntry,
      wellFormed.key_of_indexOf? found, namesReach_digraph]
    exact walk

theorem mem_strandedNodes_iff
    (distinctNames : (graph.nodes.map fun node => (node.module, node.name)).Nodup)
    {node : CallNode} :
    node ∈ graph.strandedNodes ↔ node ∈ graph.nodes ∧ graph.Stands node.id .stranded := by
  rw [strandedNodes, List.mem_filter]
  refine and_congr_right fun member => ?_
  have known : node.id ∈ graph.ids := List.mem_map_of_mem member
  have reported : (node.module, node.name) ∈
      (graph.uncalledNodes.map fun node => (node.module, node.name)) ↔
        graph.Stands node.id .uncalled := by
    rw [List.mem_map]
    constructor
    · rintro ⟨other, isUncalled, same⟩
      obtain ⟨otherMember, stands⟩ := (mem_uncalledNodes_iff distinct).mp isUncalled
      rwa [← List.inj_on_of_nodup_map distinctNames otherMember member same]
    · intro stands
      exact ⟨node, (mem_uncalledNodes_iff distinct).mpr ⟨member, stands⟩, rfl⟩
  have calls : ¬ graph.Stands node.id .uncalled → node.id ∉ graph.entrypoints →
      ∃ caller, graph.Calls caller node.id := by
    intro notUncalled unlisted
    by_contra alone
    exact notUncalled (.uncalled unlisted fun caller isCaller => alone ⟨caller, isCaller⟩)
  simp only [Bool.and_eq_true, Bool.not_eq_true', ← Bool.not_eq_true, lists_iff,
    List.contains_iff_mem, reported, mem_liveIndices_iff distinct known]
  constructor
  · rintro ⟨⟨unlisted, notUncalled⟩, unreached⟩
    obtain ⟨caller, isCaller⟩ := calls notUncalled unlisted
    exact .stranded unlisted isCaller unreached
  · intro stands
    cases stands with
    | stranded unlisted called unreached =>
      refine ⟨⟨unlisted, fun uncalled => ?_⟩, unreached⟩
      cases uncalled with
      | uncalled _ alone => exact alone _ called

end

end WorkflowGraph

/-! ### Reports -/

/-- The module and the name of a function, by which reports are told apart. -/
abbrev FunctionName := String × String

/-- The function that a node stands for, by its module and name. -/
def CallNode.function (node : CallNode) : FunctionName :=
  (node.module, node.name)

/-- The function that an item reports, by its module and name. -/
def DeadCodeItem.function (item : DeadCodeItem) : FunctionName :=
  (item.module, item.name)

/-- The items report the dead functions of a graph: first those that nothing calls, then those that
no entrypoint leads to. -/
structure WorkflowGraph.ReportedBy (graph : WorkflowGraph) (items : List DeadCodeItem)
    (uncalled stranded : List CallNode) : Prop where
  /-- The functions that nothing calls are reported before the others. -/
  listing : items =
    (uncalled.map fun node =>
      deadFunction node .zeroCallers "has no callers in the call graph") ++
    stranded.map fun node => deadFunction node .unreachable "is unreachable from any entrypoint"
  /-- The functions that nothing calls stand in the order of the nodes. -/
  uncalledOrder : uncalled.Sublist graph.nodes
  /-- The functions that no entrypoint leads to stand in the order of the nodes. -/
  strandedOrder : stranded.Sublist graph.nodes
  /-- A node is reported as uncalled if it stands so. -/
  isUncalled : ∀ node ∈ graph.nodes, node ∈ uncalled ↔ graph.Stands node.id .uncalled
  /-- A node is reported as unreachable if it is stranded. -/
  isStranded : ∀ node ∈ graph.nodes, node ∈ stranded ↔ graph.Stands node.id .stranded
  /-- No function is reported twice. -/
  once : (items.map DeadCodeItem.function).Nodup
  /-- No entrypoint is reported, and no function that one leads to. -/
  spared : ∀ node ∈ graph.nodes, node.id ∈ graph.entrypoints ∨ graph.IsLive node.id →
    node.function ∉ items.map DeadCodeItem.function

theorem map_function_deadCode (graph : WorkflowGraph) :
    graph.deadCode.map DeadCodeItem.function =
      (graph.uncalledNodes ++ graph.strandedNodes).map CallNode.function := by
  rw [WorkflowGraph.deadCode, List.map_append, List.map_append, List.map_map, List.map_map]
  rfl

namespace WorkflowGraph

/-- Neither an entrypoint nor a function that one leads to stands as dead. -/
theorem Stands.spares {graph : WorkflowGraph} {id : String}
    (spared : id ∈ graph.entrypoints ∨ graph.IsLive id) :
    ¬ graph.Stands id .uncalled ∧ ¬ graph.Stands id .stranded := by
  constructor
  · intro stands
    cases stands with
    | uncalled unlisted alone =>
      obtain ⟨entry, listed, walk⟩ := spared.resolve_left unlisted
      rcases walk.cases_tail with same | ⟨caller, -, calls⟩
      · exact unlisted (same ▸ listed)
      · exact alone caller calls
  · intro stands
    cases stands with
    | stranded unlisted _ unreached => exact spared.elim unlisted unreached

/-- Every function of a graph stands in just one way, and the dead ones are reported. -/
theorem reportedBy_deadCode (graph : WorkflowGraph) (distinct : graph.ids.Nodup)
    (distinctNames : (graph.nodes.map CallNode.function).Nodup) :
    (∀ id, ∃! standing, graph.Stands id standing) ∧
      ∃ uncalled stranded, graph.ReportedBy graph.deadCode uncalled stranded := by
  have isUncalled := @mem_uncalledNodes_iff graph distinct
  have isStranded := @mem_strandedNodes_iff graph distinct distinctNames
  have dead : ∀ node ∈ graph.uncalledNodes ++ graph.strandedNodes, node ∈ graph.nodes ∧
      (graph.Stands node.id .uncalled ∨ graph.Stands node.id .stranded) := by
    intro node member
    rcases List.mem_append.mp member with member | member
    · exact (isUncalled.mp member).imp_right .inl
    · exact (isStranded.mp member).imp_right .inr
  refine ⟨graph.existsUnique_stands, graph.uncalledNodes, graph.strandedNodes,
    { listing := rfl
      uncalledOrder := List.filter_sublist
      strandedOrder := List.filter_sublist
      isUncalled := fun node member => isUncalled.trans (and_iff_right member)
      isStranded := fun node member => isStranded.trans (and_iff_right member)
      once := ?once
      spared := ?spared }⟩
  case once =>
    have apart : (graph.uncalledNodes ++ graph.strandedNodes).Nodup := by
      have nodes : graph.nodes.Nodup := distinct.of_map _
      refine List.nodup_append.mpr ⟨nodes.filter _, nodes.filter _, ?_⟩
      rintro node inUncalled _ inStranded rfl
      obtain ⟨standing, -, unique⟩ := graph.existsUnique_stands node.id
      have same := (unique _ (isUncalled.mp inUncalled).2).trans
        (unique _ (isStranded.mp inStranded).2).symm
      exact nomatch same
    rw [map_function_deadCode, List.nodup_map_iff_inj_on apart]
    exact fun first firstMember second secondMember same =>
      List.inj_on_of_nodup_map distinctNames (dead first firstMember).1
        (dead second secondMember).1 same
  case spared =>
    intro node member spared reported
    rw [map_function_deadCode] at reported
    obtain ⟨other, isDead, same⟩ := List.mem_map.mp reported
    obtain ⟨otherMember, stands⟩ := dead other isDead
    obtain rfl := List.inj_on_of_nodup_map distinctNames otherMember member same
    exact stands.elim (Stands.spares spared).1 (Stands.spares spared).2

/-- A graph with an entrypoint and what it calls, a function that nothing calls and two that only
call each other. An edge and an entrypoint name functions that are no nodes. -/
def islands : WorkflowGraph where
  nodes := ["main", "helper", "orphan", "left", "right"].map fun name =>
    .make "m" name 1 .empty ""
  edges := [("m.main", "m.helper"), ("m.left", "m.right"), ("m.right", "m.left"),
    ("m.orphan", "m.helper"), ("m.lost", "m.orphan")].map fun pair => ⟨pair.1, pair.2, .direct⟩
  entrypoints := ["m.main", "m.lost"]
  sideEffectPaths := []

theorem reportedBy_islands :
    islands.ids.Nodup ∧ (islands.nodes.map CallNode.function).Nodup ∧
      (∀ id, ∃! standing, islands.Stands id standing) ∧
      ∃ uncalled stranded, islands.ReportedBy islands.deadCode uncalled stranded :=
  ⟨by decide +kernel, by decide +kernel,
    reportedBy_deadCode islands (by decide +kernel) (by decide +kernel)⟩

example : (islands.deadCode.map fun item => (item.name, item.kind)) =
    [("orphan", .zeroCallers), ("left", .unreachable), ("right", .unreachable)] := by
  decide +kernel

end WorkflowGraph

end MigrationGuard
