/-
This file says which edges a list of modules makes up, and so what its workflow
graph is. A function is linked to another one where one of its calls means that
function. Several calls of the same function make one edge, which stands where the
first of them stands; it has the type of the first one unless one of them is
direct. A call whose callee is blank makes no edge, whatever a blank could be
completed to, and a function is not linked to itself. The edges of a caller are
gathered by their targets, so what a gathered row is made of tells the edge, and
the order of first calls tells the order. With the nodes this determines the graph
up to its entrypoints and paths. At the end a module has a function without a
name, which a blank callee would mean.
-/

import MigrationGuard.Proofs.Workflow.Nodes
import MigrationGuard.Proofs.Workflow.Resolution

namespace MigrationGuard

/-! ### Workflow graphs and the modules behind them -/

/-- A call leads to a function: its callee is not blank and means that function for callers in the
module. -/
def CallSite.LeadsTo (call : CallSite) (nodes : List CallNode) (module target : String) : Prop :=
  Text.trimmed call.callee ≠ "" ∧ Means nodes module (Text.trimmed call.callee) target

/-- The edge is what the calls of a function in a module make up: the first of them that leads to
the target has the type of the edge, unless there is a direct one. -/
def CallEdge.MadeOf (edge : CallEdge) (nodes : List CallNode) (module : String)
    (calls : List CallSite) : Prop :=
  ∃ before call after, calls = before ++ call :: after ∧
    call.LeadsTo nodes module edge.target ∧
    (∀ earlier ∈ before, ¬ earlier.LeadsTo nodes module edge.target) ∧
    ((∃ other ∈ calls, other.LeadsTo nodes module edge.target ∧ other.callType = .direct) →
      edge.callType = .direct) ∧
    ((∀ other ∈ calls, other.LeadsTo nodes module edge.target → other.callType ≠ .direct) →
      edge.callType = call.callType)

/-- Some call leads to the first function, and no call before it leads to the second one. -/
def CalledBefore (nodes : List CallNode) (module : String) (calls : List CallSite)
    (first second : String) : Prop :=
  ∃ before call after, calls = before ++ call :: after ∧ call.LeadsTo nodes module first ∧
    ∀ earlier ∈ before, ¬ earlier.LeadsTo nodes module second

/-- The nodes and edges of the graph are those of the modules, in their order. -/
structure WorkflowGraph.MadeOf (graph : WorkflowGraph) (modules : List ExtractedModule) :
    Prop where
  /-- The nodes stand in the order of their identities, and none of them twice. -/
  ascending : graph.nodes.Pairwise fun left right => left.id < right.id
  /-- There is one node for each identity that a definition belongs to. -/
  node : ∀ node, node ∈ graph.nodes ↔ ∃ first later,
    definitionsWith node.id modules = first :: later ∧ node.MadeOf first later
  /-- There is one edge for each two functions of which one calls the other. -/
  edge : ∀ edge, edge ∈ graph.edges ↔ edge.source ≠ edge.target ∧ ∃ caller ∈ graph.nodes,
    caller.id = edge.source ∧
      edge.MadeOf graph.nodes caller.module (callsOf edge.source modules)
  /-- No two functions are linked twice. -/
  once : (graph.edges.map fun edge => (edge.source, edge.target)).Nodup
  /-- The edges stand in the order of their callers, and those of one caller in the order in which
  it first calls the others. -/
  ordered : graph.edges.Pairwise fun left right => left.source < right.source ∨
    left.source = right.source ∧ ∃ caller ∈ graph.nodes, caller.id = left.source ∧
      CalledBefore graph.nodes caller.module (callsOf left.source modules) left.target
        right.target

/-! ### Edges of one caller -/

/-- The edge with the type of a later one, if that is direct. -/
def CallEdge.upgrade (edge later : CallEdge) : CallEdge :=
  if later.callType = .direct then { edge with callType := later.callType } else edge

theorem CallEdge.target_upgrade (edge later : CallEdge) :
    (edge.upgrade later).target = edge.target := by
  unfold upgrade
  split <;> rfl

theorem addCall_eq (target : String) (callType : CallType) (source : String)
    (edges : List CallEdge) :
    addCall target callType source edges =
      Keyed.merge CallEdge.target CallEdge.upgrade edges ⟨source, target, callType⟩ := by
  induction edges with
  | nil => rfl
  | cons edge edges inductionHypothesis =>
    rw [addCall, Keyed.merge, inductionHypothesis]
    rfl

/-- The edge that a call makes by itself, if it leads to another function. -/
def edgeOfCall? (nodes : List CallNode) (caller : CallNode) (call : CallSite) : Option CallEdge :=
  match resolveCallee? nodes caller.module call.callee with
  | some target => if target = caller.id then none else some ⟨caller.id, target, call.callType⟩
  | none => none

theorem edgesFrom_eq (nodes : List CallNode) (caller : CallingNode) :
    edgesFrom nodes caller = Keyed.gather CallEdge.target CallEdge.upgrade
      (caller.calls.filterMap (edgeOfCall? nodes caller.node)) := by
  rw [edgesFrom, Keyed.gather, List.foldl_filterMap]
  congr 1
  funext edges call
  unfold edgeOfCall?
  cases resolveCallee? nodes caller.node.module call.callee with
  | none => rfl
  | some target =>
    by_cases same : target = caller.node.id <;> simp [same, addCall_eq]

/-- The calls of a caller that are looked up to a target, in the order of the text. -/
def callsTo (nodes : List CallNode) (caller : CallingNode) (target : String) : List CallSite :=
  caller.calls.filter fun call =>
    resolveCallee? nodes caller.node.module call.callee = some target

theorem edgeOfCall_eq_some_iff (nodes : List CallNode) (caller : CallNode) (call : CallSite)
    (edge : CallEdge) :
    edgeOfCall? nodes caller call = some edge ↔
      resolveCallee? nodes caller.module call.callee = some edge.target ∧
        edge.target ≠ caller.id ∧ edge = ⟨caller.id, edge.target, call.callType⟩ := by
  unfold edgeOfCall?
  cases resolveCallee? nodes caller.module call.callee with
  | none => simp
  | some found =>
    by_cases same : found = caller.id
    · simp only [same, if_true, Option.some.injEq]
      exact ⟨nofun, fun ⟨isSame, other, _⟩ => absurd isSame.symm other⟩
    · simp only [same, if_false, Option.some.injEq]
      constructor
      · rintro rfl
        exact ⟨rfl, same, rfl⟩
      · rintro ⟨isFound, _, shape⟩
        rw [shape, isFound]

theorem withKey_edges (nodes : List CallNode) (caller : CallingNode) {target : String}
    (other : target ≠ caller.node.id) :
    Keyed.withKey CallEdge.target target (caller.calls.filterMap (edgeOfCall? nodes caller.node)) =
      (callsTo nodes caller target).map fun call => ⟨caller.node.id, target, call.callType⟩ := by
  rw [Keyed.withKey, callsTo]
  induction caller.calls with
  | nil => rfl
  | cons call calls inductionHypothesis =>
    rw [List.filterMap_cons, List.filter_cons]
    by_cases leads : resolveCallee? nodes caller.node.module call.callee = some target
    · have made : edgeOfCall? nodes caller.node call =
          some ⟨caller.node.id, target, call.callType⟩ :=
        (edgeOfCall_eq_some_iff _ _ _ _).mpr ⟨leads, other, rfl⟩
      rw [made, leads]
      simp [inductionHypothesis]
    · rw [decide_eq_false leads]
      rcases made : edgeOfCall? nodes caller.node call with _ | edge
      · simp [inductionHypothesis]
      · have elsewhere : edge.target ≠ target := fun same =>
          leads (same ▸ ((edgeOfCall_eq_some_iff _ _ _ _).mp made).1)
        simp [inductionHypothesis, elsewhere]

/-- Later edges leave an edge as it is, but a direct one makes it direct. -/
theorem foldl_upgrade (edge : CallEdge) (later : List CallSite) :
    (later.map fun call => (⟨edge.source, edge.target, call.callType⟩ : CallEdge)).foldl
        CallEdge.upgrade edge =
      if ∃ call ∈ later, call.callType = .direct then { edge with callType := .direct }
      else edge := by
  induction later generalizing edge with
  | nil => simp
  | cons call later inductionHypothesis =>
    rw [List.map_cons, List.foldl_cons]
    by_cases direct : call.callType = .direct
    · have upgraded : edge.upgrade ⟨edge.source, edge.target, call.callType⟩ =
          { edge with callType := .direct } := by simp [CallEdge.upgrade, direct]
      rw [upgraded]
      have rest := inductionHypothesis { edge with callType := .direct }
      simp only [ite_self] at rest
      rw [rest]
      simp [direct]
    · have kept : edge.upgrade ⟨edge.source, edge.target, call.callType⟩ = edge := by
        simp [CallEdge.upgrade, direct]
      rw [kept, inductionHypothesis]
      simp [direct]

/-- Which edges go out from a caller, in terms of how its calls are looked up. -/
theorem mem_edgesFrom_iff (nodes : List CallNode) (caller : CallingNode) (edge : CallEdge) :
    edge ∈ edgesFrom nodes caller ↔ edge.source = caller.node.id ∧ edge.target ≠ caller.node.id ∧
      ∃ call later, callsTo nodes caller edge.target = call :: later ∧
        edge.callType = if ∃ other ∈ call :: later, other.callType = .direct then .direct
          else call.callType := by
  have absorbed : ∀ target call (later : List CallSite),
      (later.map fun call => (⟨caller.node.id, target, call.callType⟩ : CallEdge)).foldl
        CallEdge.upgrade ⟨caller.node.id, target, call.callType⟩ = ⟨caller.node.id, target,
          if ∃ other ∈ call :: later, other.callType = .direct then .direct
          else call.callType⟩ := by
    intro target call later
    rw [foldl_upgrade ⟨caller.node.id, target, call.callType⟩ later]
    simp only [List.mem_cons, exists_eq_or_imp]
    by_cases direct : call.callType = .direct
    · simp [direct]
    · simp only [direct, false_or]
      split <;> rfl
  rw [edgesFrom_eq, Keyed.mem_gather CallEdge.target_upgrade]
  by_cases other : edge.target = caller.node.id
  · simp only [other, ne_eq, not_true_eq_false, false_and, and_false, iff_false]
    intro found
    have empty : Keyed.withKey CallEdge.target caller.node.id
        (caller.calls.filterMap (edgeOfCall? nodes caller.node)) = [] := by
      refine List.filter_eq_nil_iff.mpr fun made member => ?_
      obtain ⟨call, -, isMade⟩ := List.mem_filterMap.mp member
      simpa using ((edgeOfCall_eq_some_iff _ _ _ _).mp isMade).2.1
    rw [empty] at found
    exact nomatch found
  · rw [withKey_edges nodes caller other]
    rcases callsTo nodes caller edge.target with _ | ⟨call, later⟩
    · simp [Keyed.absorbed?]
    · rw [List.map_cons, Keyed.absorbed?, absorbed, Option.some.injEq]
      constructor
      · intro same
        exact ⟨by rw [← same], other, call, later, rfl, by rw [← same]⟩
      · rintro ⟨source, -, _, _, isSplit, callType⟩
        cases isSplit
        rw [← source, ← callType]

section
variable {nodes : List CallNode}
  (ascending : nodes.Pairwise fun left right => left.id < right.id)
include ascending

theorem leadsTo_iff (call : CallSite) (module target : String) :
    call.LeadsTo nodes module target ↔
      resolveCallee? nodes module call.callee = some target :=
  (resolveCallee_eq_some_iff ascending module call.callee target).symm

/-- Which edges go out from a caller, in terms of what its calls mean. -/
theorem mem_edgesFrom_iff_madeOf (caller : CallingNode) (edge : CallEdge) :
    edge ∈ edgesFrom nodes caller ↔ edge.source = caller.node.id ∧ edge.target ≠ caller.node.id ∧
      edge.MadeOf nodes caller.node.module caller.calls := by
  have among : ∀ other, other ∈ callsTo nodes caller edge.target ↔
      other ∈ caller.calls ∧ other.LeadsTo nodes caller.node.module edge.target := by
    intro other
    rw [leadsTo_iff ascending, callsTo, List.mem_filter, decide_eq_true_eq]
  rw [mem_edgesFrom_iff]
  refine and_congr_right fun _ => and_congr_right fun _ => ?_
  constructor
  · rintro ⟨call, later, isSplit, callType⟩
    rw [isSplit] at among
    obtain ⟨before, after, split, none, leads, -⟩ := List.filter_eq_cons_iff.mp isSplit
    refine ⟨before, call, after, split, ?_, ?_, ?_, ?_⟩
    · exact (leadsTo_iff ascending ..).mpr (of_decide_eq_true leads)
    · intro earlier early isTo
      exact none earlier early (decide_eq_true ((leadsTo_iff ascending ..).mp isTo))
    · rintro ⟨other, member, isTo, direct⟩
      rw [callType, if_pos ⟨other, (among other).mpr ⟨member, isTo⟩, direct⟩]
    · intro noDirect
      rw [callType, if_neg]
      rintro ⟨other, member, direct⟩
      exact noDirect other ((among other).mp member).1 ((among other).mp member).2 direct
  · rintro ⟨before, call, after, split, leads, none, direct, notDirect⟩
    have isSplit : callsTo nodes caller edge.target = call :: after.filter fun call =>
        resolveCallee? nodes caller.node.module call.callee = some edge.target := by
      refine List.filter_eq_cons_iff.mpr ⟨before, after, split, ?_, ?_, rfl⟩
      · intro earlier early isTo
        exact none earlier early ((leadsTo_iff ascending ..).mpr (of_decide_eq_true isTo))
      · exact decide_eq_true ((leadsTo_iff ascending ..).mp leads)
    refine ⟨call, _, isSplit, ?_⟩
    rw [← isSplit]
    split
    · rename_i found
      obtain ⟨other, member, isDirect⟩ := found
      exact direct ⟨other, ((among other).mp member).1, ((among other).mp member).2, isDirect⟩
    · rename_i noDirect
      refine notDirect fun other member isTo isDirect => noDirect ⟨other, ?_, isDirect⟩
      exact (among other).mpr ⟨member, isTo⟩

/-- The targets of a caller stand in the order in which it first calls them, none of them twice. -/
theorem ordered_edgesFrom (caller : CallingNode) :
    (edgesFrom nodes caller).Pairwise fun left right => left.target ≠ right.target ∧
      CalledBefore nodes caller.node.module caller.calls left.target right.target := by
  rw [edgesFrom_eq]
  have distinct := Keyed.nodup_keys_gather CallEdge.target_upgrade
    (caller.calls.filterMap (edgeOfCall? nodes caller.node))
  have precede := Keyed.pairwise_gather CallEdge.target_upgrade
    (caller.calls.filterMap (edgeOfCall? nodes caller.node))
  rw [List.Nodup, List.pairwise_map] at distinct
  rw [List.pairwise_map] at precede
  refine (distinct.and precede).imp_of_mem ?_
  rintro left right leftMember rightMember ⟨different, precedes⟩
  rw [← edgesFrom_eq, mem_edgesFrom_iff] at leftMember rightMember
  refine ⟨different, ?_⟩
  obtain ⟨before, call, after, split, ⟨row, made, same⟩, none⟩ :=
    Keyed.precedes_filterMap _ precedes
  refine ⟨before, call, after, split, ?_, fun earlier early leads => ?_⟩
  · rw [leadsTo_iff ascending, ← same]
    exact ((edgeOfCall_eq_some_iff _ _ _ _).mp made).1
  · refine none earlier early ⟨caller.node.id, right.target, earlier.callType⟩ ?_ rfl
    rw [leadsTo_iff ascending] at leads
    exact (edgeOfCall_eq_some_iff _ _ _ _).mpr ⟨leads, rightMember.2.1, rfl⟩

end

/-! ### The graph of a list of modules -/

/-- The nodes and edges of the graph that is built are those of the modules. -/
theorem buildWorkflowGraph_madeOf (modules : List ExtractedModule) (maxHops maxPaths : Nat) :
    (buildWorkflowGraph modules maxHops maxPaths).MadeOf modules := by
  let callers := CallingNode.ofModules modules
  let nodes := callers.map CallingNode.node
  have callersAscend := ascending_ofModules modules
  have ascending : nodes.Pairwise fun left right => left.id < right.id :=
    List.pairwise_map.mpr callersAscend
  have sources : ∀ caller, ∀ edge ∈ edgesFrom nodes caller, edge.source = caller.node.id :=
    fun caller edge member => ((mem_edgesFrom_iff _ _ _).mp member).1
  -- Edges of two callers are told apart by their sources, those of one caller by their targets.
  have apart : (callers.flatMap (edgesFrom nodes)).Pairwise fun left right =>
      left.source < right.source ∨ left.source = right.source ∧ left.target ≠ right.target ∧
        ∃ caller ∈ nodes, caller.id = left.source ∧
          CalledBefore nodes caller.module (callsOf left.source modules) left.target
            right.target := by
    refine List.pairwise_flatMap.mpr ⟨fun caller member => ?_, callersAscend.imp ?_⟩
    · refine (ordered_edgesFrom ascending caller).imp_of_mem ?_
      rintro left right leftMember rightMember ⟨different, before⟩
      rw [sources caller left leftMember, sources caller right rightMember]
      rw [CallingNode.calls_of_mem member] at before
      exact Or.inr ⟨rfl, different, caller.node, List.mem_map_of_mem member, rfl, before⟩
    · intro first second ordered left leftMember right rightMember
      rw [sources first left leftMember, sources second right rightMember]
      exact Or.inl ordered
  refine ⟨ascending, mem_nodes_iff modules, fun edge => ?_, ?_, ?_⟩
  · show edge ∈ callers.flatMap (edgesFrom nodes) ↔ edge.source ≠ edge.target ∧
      ∃ caller ∈ nodes, caller.id = edge.source ∧
        edge.MadeOf nodes caller.module (callsOf edge.source modules)
    rw [List.mem_flatMap]
    constructor
    · rintro ⟨caller, member, isFrom⟩
      obtain ⟨source, other, made⟩ := (mem_edgesFrom_iff_madeOf ascending caller edge).mp isFrom
      rw [CallingNode.calls_of_mem member] at made
      rw [source]
      exact ⟨Ne.symm other, caller.node, List.mem_map_of_mem member, rfl, made⟩
    · rintro ⟨other, node, isNode, source, made⟩
      obtain ⟨caller, member, rfl⟩ := List.mem_map.mp isNode
      refine ⟨caller, member, (mem_edgesFrom_iff_madeOf ascending caller edge).mpr ?_⟩
      rw [CallingNode.calls_of_mem member, source]
      exact ⟨rfl, Ne.symm other, made⟩
  · refine List.pairwise_map.mpr (apart.imp ?_)
    rintro left right (ordered | ⟨-, different, -⟩) same
    · exact String.lt_irrefl _ ((Prod.mk.inj same).1 ▸ ordered)
    · exact different (Prod.mk.inj same).2
  · exact apart.imp fun {left right} (related : _ ∨ _) =>
      related.imp_right fun ⟨same, _, before⟩ => ⟨same, before⟩

/-- A module with a function without a name and one that calls it. -/
def namelessModule : ExtractedModule :=
  ⟨"m", [⟨"", 1, "def ()", [], .empty⟩, ⟨"f", 1, "def f()", [⟨"", .direct⟩], .empty⟩]⟩

/-- Not every call that means another function makes an edge: the callee must not be blank. -/
theorem blankCallee_notLinked :
    ¬ ∀ (modules : List ExtractedModule) (maxHops maxPaths : Nat) (source target : String),
      let graph := buildWorkflowGraph modules maxHops maxPaths
      (∃ edge ∈ graph.edges, edge.source = source ∧ edge.target = target) ↔ source ≠ target ∧
        ∃ caller ∈ graph.nodes, caller.id = source ∧ ∃ call ∈ callsOf source modules,
          Means graph.nodes caller.module (Text.trimmed call.callee) target := by
  intro linked
  have gathered : CallingNode.ofModules [namelessModule] =
      namelessModule.functions.map (CallingNode.ofDefinition "m") :=
    List.mergeSort_of_pairwise (by decide +kernel)
  have nodes : (buildWorkflowGraph [namelessModule] 8 20).nodes =
      namelessModule.functions.map (CallingNode.node ∘ CallingNode.ofDefinition "m") := by
    rw [buildWorkflowGraph, gathered, List.map_map]
  have edges : (buildWorkflowGraph [namelessModule] 8 20).edges = [] := by
    rw [buildWorkflowGraph, gathered]
    decide +kernel
  have means := (linked [namelessModule] 8 20 "m.f" "m.").mpr ⟨by decide, _, by
    rw [nodes]
    exact List.mem_map_of_mem (List.mem_cons_of_mem _ List.mem_cons_self), by decide +kernel,
    ⟨"", .direct⟩, by decide +kernel, by
    rw [nodes]
    exact .inModule (by decide +kernel) (by decide +kernel)⟩
  rw [edges] at means
  obtain ⟨edge, member, -⟩ := means
  exact nomatch member

end MigrationGuard
