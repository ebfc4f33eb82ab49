/-
This file holds directed graphs over named nodes. A node keeps the index that it
first got, an edge counts once however often it is added, and successors stand in
the order in which their edges were added. Reachability and simple paths are
searched on the indices. The search for reachable nodes keeps a list of nodes that
wait, the search for paths goes into depth and tries successors in order, so what
it finds first is determined by the graph. Both are bounded by what the graph
holds.
-/

namespace MigrationGuard

/-- A directed graph over named nodes. Its parts say the same thing in several ways, so that each
question has a quick answer. -/
structure Digraph where
  /-- The names by index. -/
  keys : List String
  /-- The index of every name, the newest name first. -/
  indices : List (String × Nat)
  /-- The successors of each node in order of insertion. -/
  outgoing : List (List Nat)
  /-- The number of edges into each node. -/
  inDegrees : List Nat
  /-- The edges, the newest first. -/
  edgeSet : List (Nat × Nat)
  deriving DecidableEq, Repr

namespace Digraph

/-! ### Building -/

/-- The graph without nodes, from which every graph is made by additions. -/
def empty : Digraph := ⟨[], [], [], [], []⟩

instance : Inhabited Digraph := ⟨empty⟩

/-- The index of a name, if there is a node of that name. -/
def indexOf? (graph : Digraph) (key : String) : Option Nat :=
  graph.indices.lookup key

/-- The graph with a node of the given name, and its index. A known name keeps its index. -/
def addNode (graph : Digraph) (key : String) : Digraph × Nat :=
  match graph.indexOf? key with
  | some index => (graph, index)
  | none =>
    (⟨graph.keys ++ [key], (key, graph.keys.length) :: graph.indices, graph.outgoing ++ [[]],
      graph.inDegrees ++ [0], graph.edgeSet⟩, graph.keys.length)

/-- The graph with an edge, and whether the edge is new. -/
def addEdge (graph : Digraph) (source target : Nat) : Digraph × Bool :=
  if graph.edgeSet.contains (source, target) then (graph, false)
  else
    (⟨graph.keys, graph.indices, graph.outgoing.modify source (· ++ [target]),
      graph.inDegrees.modify target (· + 1), (source, target) :: graph.edgeSet⟩, true)

/-- The graph with an edge between two names, if both are known. -/
def addNamedEdge (graph : Digraph) (pair : String × String) : Digraph :=
  match graph.indexOf? pair.1, graph.indexOf? pair.2 with
  | some source, some target => (graph.addEdge source target).1
  | _, _ => graph

/-- The graph of a list of names and a list of pairs of names. Pairs with an unknown name are
dropped. -/
def ofEdges (nodes : List String) (pairs : List (String × String)) : Digraph :=
  let withNodes := nodes.foldl (fun graph key => (graph.addNode key).1) empty
  pairs.foldl addNamedEdge withNodes

/-! ### Looking -/

/-- The number of nodes, which is also the next index. -/
def nodeCount (graph : Digraph) : Nat :=
  graph.keys.length

/-- The number of edges, repeated additions counted once. -/
def edgeCount (graph : Digraph) : Nat :=
  graph.edgeSet.length

/-- The name at an index, which is empty where there is no node. -/
def key (graph : Digraph) (index : Nat) : String :=
  graph.keys.getD index ""

/-- The successors of a node in order of insertion. A node that is not there has none. -/
def successors (graph : Digraph) (index : Nat) : List Nat :=
  graph.outgoing.getD index []

/-- The number of edges into a node, which is zero where there is no node. -/
def inDegree (graph : Digraph) (index : Nat) : Nat :=
  graph.inDegrees.getD index 0

/-- The number of edges into a named node, if there is one. -/
def inDegreeOf? (graph : Digraph) (key : String) : Option Nat :=
  (graph.indexOf? key).map graph.inDegree

/-! ### Reachability -/

/-- The indices of a list that were not seen before, each once. -/
def unseen (seen : List Nat) : List Nat → List Nat
  | [] => []
  | index :: indices =>
    if seen.contains index then unseen seen indices
    else index :: unseen (index :: seen) indices

/-- Breadth-first search: every step takes the first waiting node and lets its unseen successors
wait. A node waits once, so the nodes that can wait bound the steps. -/
def explore (graph : Digraph) : Nat → List Nat → List Nat → List Nat
  | 0, seen, _ => seen
  | _, seen, [] => seen
  | steps + 1, seen, current :: waiting =>
    let fresh := unseen seen (graph.successors current)
    explore graph steps (seen ++ fresh) (waiting ++ fresh)

/-- The nodes that some root leads to along edges, the roots themselves included. -/
def reachableFrom (graph : Digraph) (roots : List Nat) : List Nat :=
  let start := unseen [] roots
  graph.explore (graph.edgeSet.length + roots.length) start start

/-! ### Simple paths -/

/-- The paths to the target that extend a path, given backwards, by at most the given number of
edges. Depth comes first, successors are tried in order, and the search ends when enough paths
are found. -/
def extensions (graph : Digraph) (target limit : Nat) : Nat → List Nat → List (List Nat)
  | 0, _ => []
  | hops + 1, path =>
    (graph.successors (path.headD 0)).foldl
      (fun found next =>
        if limit ≤ found.length then found
        else if next = target then found ++ [(next :: path).reverse]
        else if path.contains next then found
        else
          found ++ (extensions graph target limit hops (next :: path)).take
            (limit - found.length))
      []

/-- The first paths from one node to another that repeat no node and have at most the given number
of edges, in order of depth-first discovery. A node has no path to itself. -/
def simplePaths (graph : Digraph) (source target hops limit : Nat) : List (List Nat) :=
  if source = target then [] else graph.extensions target limit hops [source]

end Digraph

end MigrationGuard
