/-
This file builds the workflow graph of a list of modules. Definitions with one
identity become one node; a call becomes an edge if its name leads to a known
function: by its identity, seen from the module of the caller, or by its bare
name. A function that calls itself gets no edge for it, and several calls between
the same two functions make one edge, which is direct if one of them is. Paths
from entrypoints to side effects are listed up to a common limit. Nodes and edges
stand in the order of identities, so the order of modules makes no difference as
long as no two definitions have the same identity.
-/

import MigrationGuard.Source.Module
import MigrationGuard.Workflow.Digraph

namespace MigrationGuard

/-! ### Nodes -/

/-- A node together with the calls of its function, which become edges once all nodes are known. -/
structure CallingNode where
  node : CallNode
  /-- The calls in order. -/
  calls : List CallSite
  deriving DecidableEq, Repr

namespace CallingNode

/-- The node of one definition, with the calls that stand in it. -/
def ofDefinition (module : String) (function : ExtractedFunction) : CallingNode :=
  ⟨.make module function.name function.line function.effects function.signature, function.calls⟩

/-- Adds the effects and calls of a later definition with the same identity. -/
def absorb (first later : CallingNode) : CallingNode :=
  let effects := first.node.effects.union later.node.effects
  ⟨{ first.node with effects, kind := .classify first.node.name effects },
    first.calls ++ later.calls⟩

/-- The nodes with one more definition, which is absorbed by the node of its identity if there is
one. -/
def merge (nodes : List CallingNode) (definition : CallingNode) : List CallingNode :=
  match nodes with
  | [] => [definition]
  | first :: rest =>
    if first.node.id = definition.node.id then first.absorb definition :: rest
    else first :: merge rest definition

/-- The nodes of all modules in order of their identities. -/
def ofModules (modules : List ExtractedModule) : List CallingNode :=
  let definitions := modules.flatMap fun source =>
    source.functions.map (ofDefinition source.module)
  (definitions.foldl merge []).mergeSort fun left right => Text.atMost left.node.id right.node.id

end CallingNode

/-! ### Edges -/

/-- What may stand before the name of a method, and is left out when the name is looked up. -/
def receivers : List String := ["self.", "cls."]

/-- The name behind a receiver, or the name itself where none stands before it. -/
def behindReceiver (callee : String) : String :=
  (receivers.findSome? fun receiver => Text.dropStart receiver callee).getD callee

/-- The identity of the function that a name means inside a module. Among functions with the same
bare name the first identity wins. -/
def resolveCallee? (nodes : List CallNode) (module callee : String) : Option String :=
  let callee := Text.trimmed callee
  let known := fun id => nodes.any fun node => node.id == id
  if callee = "" then none
  else if known callee then some callee
  else if known (CallNode.idOf module callee) then some (CallNode.idOf module callee)
  else
    let short := behindReceiver callee
    if Text.contains short "." then none
    else (nodes.find? fun node => node.name == short).map CallNode.id

/-- The edges of one caller with one more call. A direct call wins over others between the same
functions. -/
def addCall (target : String) (callType : CallType) (source : String) :
    List CallEdge → List CallEdge
  | [] => [⟨source, target, callType⟩]
  | edge :: edges =>
    if edge.target = target then
      (if callType = .direct then { edge with callType } else edge) :: edges
    else edge :: addCall target callType source edges

/-- The edges of one caller. Calls of itself and calls of unknown functions give none. -/
def edgesFrom (nodes : List CallNode) (caller : CallingNode) : List CallEdge :=
  caller.calls.foldl
    (fun edges call => match resolveCallee? nodes caller.node.module call.callee with
      | some target =>
        if target = caller.node.id then edges
        else addCall target call.callType caller.node.id edges
      | none => edges)
    []

/-! ### Paths to side effects -/

/-- The graph of identities, in which paths and reachability are searched. -/
def identityGraph (nodes : List CallNode) (edges : List CallEdge) : Digraph :=
  .ofEdges (nodes.map CallNode.id) (edges.map fun edge => (edge.source, edge.target))

/-- The pairs of an entrypoint and a function with side effects, in order of search. -/
def sourceSinkPairs (graph : Digraph) (nodes : List CallNode) (entrypoints : List String) :
    List (Nat × Nat) :=
  let sinks := (nodes.filter CallNode.hasEffects).filterMap fun node => graph.indexOf? node.id
  (entrypoints.filterMap graph.indexOf?).flatMap fun source => sinks.map fun sink => (source, sink)

/-- The first paths from entrypoints to functions with side effects. -/
def pathsToEffects (nodes : List CallNode) (edges : List CallEdge) (entrypoints : List String)
    (maxHops maxPaths : Nat) : List (List String) :=
  let graph := identityGraph nodes edges
  let found := (sourceSinkPairs graph nodes entrypoints).foldl
    (fun found pair =>
      if maxPaths ≤ found.length then found
      else found ++ graph.simplePaths pair.1 pair.2 maxHops (maxPaths - found.length))
    []
  found.map fun path => path.map graph.key

/-! ### Graphs -/

/-- The workflow graph of a list of modules, with at most so many paths of at most so many calls. -/
def buildWorkflowGraph (modules : List ExtractedModule) (maxHops maxPaths : Nat) : WorkflowGraph :=
  let callers := CallingNode.ofModules modules
  let nodes := callers.map CallingNode.node
  let edges := callers.flatMap (edgesFrom nodes)
  let entrypoints := (nodes.filter CallNode.isEntrypoint).map CallNode.id
  ⟨nodes, edges, entrypoints, pathsToEffects nodes edges entrypoints maxHops maxPaths⟩

end MigrationGuard
