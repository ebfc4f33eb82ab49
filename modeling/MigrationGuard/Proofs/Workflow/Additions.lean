/-
This file tells the parts of a graph from what was added to it. Names and edges
are added in any order and as often as one likes. A name keeps the index that it
got first, an edge counts once, and the list of names, the look-up of names, the
successors, the numbers of incoming edges and the set of edges go on saying the
same. A graph that is made of names and pairs of names is built in this way too.
Additions are data, so a history of them is a list, and which edges may be added
is asked of the graph as it is at that point: both ends must have been issued as
indices. That the parts of a graph agree is kept by each addition. With it, what
each part holds can be said of the whole list at once, as the first occurrences of
the names and edges in it.
-/

import Mathlib.Data.Set.Card
import MigrationGuard.Proofs.Workflow.Digraph

namespace MigrationGuard.Digraph

/-! ### What is added -/

/-- Something that is added to a graph, whether or not the graph has it already. -/
inductive Addition where
  /-- A node with a name. -/
  | node (key : String)
  /-- An edge between two indices. -/
  | edge (source target : Nat)

namespace Addition

/-- The name that is added, if it is a name. -/
def name? : Addition → Option String
  | node key => some key
  | edge _ _ => none

/-- The edge that is added, if it is an edge. -/
def edge? : Addition → Option (Nat × Nat)
  | node _ => none
  | edge source target => some (source, target)

/-- The names that are added, in order and with their repetitions. -/
def names (additions : List Addition) : List String :=
  additions.filterMap name?

/-- The edges that are added, in order and with their repetitions. -/
def edges (additions : List Addition) : List (Nat × Nat) :=
  additions.filterMap edge?

/-- The ends of the edges that are added to a node, in order. -/
def targets (source : Nat) (additions : List Addition) : List Nat :=
  ((edges additions).filter fun edge => edge.1 = source).map Prod.snd

end Addition

theorem Addition.mem_targets_iff {source target : Nat} {additions : List Addition} :
    target ∈ Addition.targets source additions ↔ .edge source target ∈ additions := by
  simp only [targets, edges, List.mem_map, List.mem_filter, List.mem_filterMap,
    decide_eq_true_eq]
  constructor
  · rintro ⟨_, ⟨⟨addition, added, isEdge⟩, rfl⟩, rfl⟩
    cases addition with
    | node key => exact nomatch isEdge
    | edge source target =>
      cases isEdge
      exact added
  · intro added
    exact ⟨(source, target), ⟨⟨_, added, rfl⟩, rfl⟩, rfl⟩

/-- The graph with an addition, which may be one that it has already. -/
def adding (graph : Digraph) : Addition → Digraph
  | .node key => (graph.addNode key).1
  | .edge source target => (graph.addEdge source target).1

/-- The graph that additions build when they are made to the empty one in their order. -/
def ofAdditions (additions : List Addition) : Digraph :=
  additions.foldl adding empty

/-- The graph has issued the index for some name. -/
def Issues (graph : Digraph) (index : Nat) : Prop :=
  ∃ key, graph.indexOf? key = some index

/-- Edges run between indices that were issued, and names may always be added. -/
def Admits (graph : Digraph) : Addition → Prop
  | .node _ => True
  | .edge source target => graph.Issues source ∧ graph.Issues target

/-- The additions may be made to the graph, one after another. -/
def AdmitsAll (graph : Digraph) : List Addition → Prop
  | [] => True
  | addition :: additions => graph.Admits addition ∧ (graph.adding addition).AdmitsAll additions

theorem ofAdditions_concat (additions : List Addition) (addition : Addition) :
    ofAdditions (additions ++ [addition]) = (ofAdditions additions).adding addition := by
  rw [ofAdditions, List.foldl_append]
  rfl

theorem admitsAll_concat {graph : Digraph} {additions : List Addition} {addition : Addition} :
    graph.AdmitsAll (additions ++ [addition]) ↔
      graph.AdmitsAll additions ∧ (additions.foldl adding graph).Admits addition := by
  induction additions generalizing graph with
  | nil => exact and_comm
  | cons first additions inductionHypothesis =>
    rw [List.cons_append, AdmitsAll, AdmitsAll, inductionHypothesis, and_assoc]
    rfl

/-! ### Names -/

theorem indexOf?_addNode (graph : Digraph) (key : String) :
    (graph.addNode key).1.indexOf? key = some (graph.addNode key).2 := by
  unfold addNode
  rcases found : graph.indexOf? key with _ | index
  · exact List.lookup_cons_self
  · exact found

theorem indexOf?_addNode_of_eq_some {graph : Digraph} {key : String} {index : Nat}
    (found : graph.indexOf? key = some index) (other : String) :
    (graph.addNode other).1.indexOf? key = some index := by
  unfold addNode
  rcases known : graph.indexOf? other with _ | _
  · have different : key ≠ other := by
      rintro rfl
      exact nomatch found.symm.trans known
    show List.lookup key ((other, _) :: graph.indices) = some index
    rw [List.lookup_cons, beq_false_of_ne different]
    exact found
  · exact found

theorem indexOf?_addEdge (graph : Digraph) (source target : Nat) :
    (graph.addEdge source target).1.indexOf? = graph.indexOf? := by
  funext key
  unfold addEdge
  split <;> rfl

/-- A name keeps its index, whatever is added, be it the same name once more. -/
theorem indexOf?_adding {graph : Digraph} {key : String} {index : Nat}
    (found : graph.indexOf? key = some index) (addition : Addition) :
    (graph.adding addition).indexOf? key = some index := by
  cases addition with
  | node other => exact indexOf?_addNode_of_eq_some found other
  | edge source target => exact (congrFun (indexOf?_addEdge graph source target) key).trans found

theorem indexOf?_ofAdditions {additions before : List Addition} {key : String}
    (added : before ++ [.node key] <+: additions) :
    (ofAdditions additions).indexOf? key = some ((ofAdditions before).addNode key).2 := by
  obtain ⟨later, rfl⟩ := added
  induction later using List.reverseRecOn with
  | nil =>
    rw [List.append_nil, ofAdditions_concat]
    exact indexOf?_addNode _ key
  | append_singleton later addition inductionHypothesis =>
    rw [← List.append_assoc, ofAdditions_concat]
    exact indexOf?_adding inductionHypothesis addition

theorem WellFormed.issues_iff {graph : Digraph} (wellFormed : graph.WellFormed) {index : Nat} :
    graph.Issues index ↔ index < graph.keys.length := by
  simp only [Issues, wellFormed.lookup]
  constructor
  · rintro ⟨key, stands⟩
    exact (List.getElem?_eq_some_iff.mp stands).1
  · intro bound
    exact ⟨graph.keys[index], List.getElem?_eq_getElem bound⟩

/-! ### Sums of lengths -/

theorem sum_lengths_modify {Item : Type} {rows : List (List Item)} {changed : Nat}
    (bound : changed < rows.length) (item : Item) :
    ((rows.modify changed (· ++ [item])).map List.length).sum =
      (rows.map List.length).sum + 1 := by
  induction rows generalizing changed with
  | nil => exact absurd bound (Nat.not_lt_zero changed)
  | cons row rows inductionHypothesis =>
    cases changed with
    | zero => simp [Nat.add_right_comm]
    | succ changed =>
      rw [List.modify_succ_cons, List.map_cons, List.sum_cons,
        inductionHypothesis (Nat.lt_of_succ_lt_succ bound), List.map_cons, List.sum_cons,
        Nat.add_assoc]

theorem edgeCount_addNode {graph : Digraph}
    (counted : graph.edgeCount = (graph.outgoing.map List.length).sum) (key : String) :
    (graph.addNode key).1.edgeCount = ((graph.addNode key).1.outgoing.map List.length).sum := by
  unfold addNode
  rcases graph.indexOf? key with _ | index
  · simpa [edgeCount] using counted
  · exact counted

theorem edgeCount_addEdge {graph : Digraph}
    (counted : graph.edgeCount = (graph.outgoing.map List.length).sum) {source : Nat}
    (bound : source < graph.outgoing.length) (target : Nat) :
    (graph.addEdge source target).1.edgeCount =
      ((graph.addEdge source target).1.outgoing.map List.length).sum := by
  unfold addEdge
  split
  · exact counted
  · exact (congrArg (· + 1) counted).trans (sum_lengths_modify bound target).symm

/-! ### What additions build -/

theorem WellFormed.adding {graph : Digraph} (wellFormed : graph.WellFormed) {addition : Addition}
    (admitted : graph.Admits addition) : (graph.adding addition).WellFormed := by
  cases addition with
  | node key => exact wellFormed.addNode key
  | edge source target =>
    obtain ⟨⟨_, foundSource⟩, _, foundTarget⟩ := admitted
    exact wellFormed.addEdge (wellFormed.lt_of_indexOf? foundSource)
      (wellFormed.lt_of_indexOf? foundTarget)

/-- The edges stand in the order in which they were added first. -/
theorem edges_ofAdditions (additions : List Addition) :
    (ofAdditions additions).edges = (Addition.edges additions).eraseDups := by
  induction additions using List.reverseRecOn with
  | nil => rfl
  | append_singleton additions addition inductionHypothesis =>
    rw [ofAdditions_concat, Addition.edges, List.filterMap_append]
    cases addition with
    | node key =>
      refine (congrArg List.reverse (edgeSet_addNode _ key)).trans (inductionHypothesis.trans ?_)
      exact congrArg List.eraseDups (List.append_nil _).symm
    | edge source target =>
      refine (edges_addEdge _ source target).trans ?_
      rw [inductionHypothesis]
      refine Eq.trans ?_ (eraseDups_concat (Addition.edges additions) (source, target)).symm
      simp only [List.mem_eraseDups]

section
variable {additions : List Addition} (admitted : empty.AdmitsAll additions)
include admitted

theorem wellFormed_ofAdditions : (ofAdditions additions).WellFormed := by
  induction additions using List.reverseRecOn with
  | nil => exact wellFormed_empty
  | append_singleton additions addition inductionHypothesis =>
    obtain ⟨before, last⟩ := admitsAll_concat.mp admitted
    rw [ofAdditions_concat]
    exact (inductionHypothesis before).adding last

/-- The names stand in the order in which they were added first. -/
theorem keys_ofAdditions :
    (ofAdditions additions).keys = (Addition.names additions).eraseDups := by
  induction additions using List.reverseRecOn with
  | nil => rfl
  | append_singleton additions addition inductionHypothesis =>
    obtain ⟨before, -⟩ := admitsAll_concat.mp admitted
    rw [ofAdditions_concat, Addition.names, List.filterMap_append]
    cases addition with
    | node key =>
      refine ((wellFormed_ofAdditions before).keys_addNode key).trans ?_
      rw [inductionHypothesis before]
      refine Eq.trans ?_ (eraseDups_concat (Addition.names additions) key).symm
      simp only [List.mem_eraseDups]
    | edge source target =>
      refine (keys_addEdge _ source target).trans ((inductionHypothesis before).trans ?_)
      exact congrArg List.eraseDups (List.append_nil _).symm

theorem edgeCount_ofAdditions : (ofAdditions additions).edgeCount =
    ((ofAdditions additions).outgoing.map List.length).sum := by
  induction additions using List.reverseRecOn with
  | nil => rfl
  | append_singleton additions addition inductionHypothesis =>
    obtain ⟨before, last⟩ := admitsAll_concat.mp admitted
    have counted := inductionHypothesis before
    rw [ofAdditions_concat]
    cases addition with
    | node key => exact edgeCount_addNode counted key
    | edge source target =>
      obtain ⟨_, foundSource⟩ := last.1
      have wellFormed := wellFormed_ofAdditions before
      have bound := wellFormed.lt_of_indexOf? foundSource
      exact edgeCount_addEdge counted (wellFormed.rows ▸ bound) target

end

/-! ### Parts that agree -/

/-- The first occurrences of the pairs with a given first part are those of the second parts. -/
theorem map_snd_filter_eraseDups (pairs : List (Nat × Nat)) (source : Nat) :
    (pairs.eraseDups.filter fun pair => pair.1 = source).map Prod.snd =
      ((pairs.filter fun pair => pair.1 = source).map Prod.snd).eraseDups := by
  induction pairs using List.reverseRecOn with
  | nil => rfl
  | append_singleton pairs pair inductionHypothesis =>
    obtain ⟨start, target⟩ := pair
    have known : target ∈ (pairs.filter fun pair => pair.1 = source).map Prod.snd ↔
        (source, target) ∈ pairs := by
      simp
    rw [eraseDups_concat, List.filter_append, List.map_append]
    by_cases same : start = source
    · subst same
      have single : ([(start, target)].filter fun pair => pair.1 = start) = [(start, target)] := by
        simp
      rw [single, List.map_singleton, eraseDups_concat, ← inductionHypothesis]
      simp only [known]
      by_cases member : (start, target) ∈ pairs
      · rw [if_pos member, if_pos member]
      · rw [if_neg member, if_neg member, List.filter_append, List.map_append, single]
        rfl
    · have none : ([(start, target)].filter fun pair => pair.1 = source) = [] := by
        simp [same]
      rw [none, List.map_nil, List.append_nil, ← inductionHypothesis]
      split
      · rfl
      · rw [List.filter_append, none, List.append_nil]

/-- The edges into a node are as many as the nodes that they come from. -/
theorem WellFormed.inDegree_eq_ncard {graph : Digraph} (wellFormed : graph.WellFormed)
    (target : Nat) :
    graph.inDegree target = {source | (source, target) ∈ graph.edgeSet}.ncard := by
  have distinct : ((graph.edges.filter fun edge => edge.2 = target).map Prod.fst).Nodup := by
    refine List.Nodup.map_on (fun first isFirst second isSecond same => ?_)
      (wellFormed.once.filter _)
    have firstEnd := of_decide_eq_true (List.mem_filter.mp isFirst).2
    have secondEnd := of_decide_eq_true (List.mem_filter.mp isSecond).2
    exact Prod.ext same (firstEnd.trans secondEnd.symm)
  have sources : {source | (source, target) ∈ graph.edgeSet} =
      ((graph.edges.filter fun edge => edge.2 = target).map Prod.fst).toFinset := by
    ext source
    simp [edges]
  rw [sources, Set.ncard_coe_finset, List.toFinset_card_of_nodup distinct, List.length_map,
    wellFormed.inDegree, List.countP_eq_length_filter]

/-- What every part of a graph tells of the additions that made it. -/
structure Tells (graph : Digraph) (additions : List Addition) : Prop where
  /-- The names stand once each, in the order in which they were added first. -/
  keys : graph.keys = (Addition.names additions).eraseDups
  /-- No name has two indices. -/
  distinct : graph.keys.Nodup
  /-- A name is looked up where it stands. -/
  lookup : ∀ key index, graph.indexOf? key = some index ↔ graph.keys[index]? = some key
  /-- The index that a name got whenever it was added is the one that it has. -/
  keeps : ∀ before key, before ++ [.node key] <+: additions →
    graph.indexOf? key = some ((ofAdditions before).addNode key).2
  /-- Every node has a list of successors. -/
  rows : graph.outgoing.length = graph.keys.length
  /-- Every node has a number of incoming edges. -/
  columns : graph.inDegrees.length = graph.keys.length
  /-- The successors stand in the order in which they were added first. -/
  successors : ∀ source, graph.successors source = (Addition.targets source additions).eraseDups
  /-- No successor of a node stands twice. -/
  successorsOnce : ∀ source, (graph.successors source).Nodup
  /-- No edge stands twice. -/
  edgesOnce : graph.edgeSet.Nodup
  /-- The edges of a node run to its successors. -/
  edges : ∀ source target,
    (source, target) ∈ graph.edgeSet ↔ target ∈ graph.successors source
  /-- The edges into a node are as many as the nodes that they come from. -/
  inDegree : ∀ target, graph.inDegree target = {source | (source, target) ∈ graph.edgeSet}.ncard
  /-- The edges are as many as the successors of all nodes. -/
  edgeCount : graph.edgeCount = (graph.outgoing.map List.length).sum

theorem Tells.mem_successors_iff {graph : Digraph} {additions : List Addition}
    (tells : graph.Tells additions) {source target : Nat} :
    target ∈ graph.successors source ↔ .edge source target ∈ additions := by
  rw [tells.successors, List.mem_eraseDups, Addition.mem_targets_iff]

theorem tells_ofAdditions {additions : List Addition} (admitted : empty.AdmitsAll additions) :
    (ofAdditions additions).Tells additions := by
  have wellFormed := wellFormed_ofAdditions admitted
  have successors : ∀ source, (ofAdditions additions).successors source =
      (Addition.targets source additions).eraseDups := by
    intro source
    rw [wellFormed.successors, edges_ofAdditions, map_snd_filter_eraseDups]
    rfl
  exact
    { keys := keys_ofAdditions admitted
      distinct := wellFormed.distinct
      lookup := wellFormed.lookup
      keeps := fun _ _ => indexOf?_ofAdditions
      rows := wellFormed.rows
      columns := wellFormed.columns
      successors := successors
      successorsOnce := fun source => by
        rw [successors]
        exact nodup_eraseDups _
      edgesOnce := List.nodup_reverse.mp wellFormed.once
      edges := fun source target => by
        rw [wellFormed.mem_successors_iff, Digraph.edges, List.mem_reverse]
      inDegree := wellFormed.inDegree_eq_ncard
      edgeCount := edgeCount_ofAdditions admitted }

/-! ### Names and pairs of names -/

/-- The edge between two names, if both are known. Other pairs are passed over. -/
def edgeBetween? (graph : Digraph) (pair : String × String) : Option Addition :=
  match graph.indexOf? pair.1, graph.indexOf? pair.2 with
  | some source, some target => some (.edge source target)
  | _, _ => none

/-- The additions that names and pairs of names stand for: first every name, then an edge for
every pair of known names. -/
def additionsOf (nodes : List String) (pairs : List (String × String)) : List Addition :=
  nodes.map .node ++ pairs.filterMap (ofNodes nodes).edgeBetween?

theorem addNamedEdge_eq_foldl (graph : Digraph) (pair : String × String) :
    graph.addNamedEdge pair = (graph.edgeBetween? pair).toList.foldl adding graph := by
  unfold addNamedEdge edgeBetween?
  rcases graph.indexOf? pair.1 with _ | source
  · rfl
  · rcases graph.indexOf? pair.2 with _ | target <;> rfl

theorem admits_of_edgeBetween? {graph : Digraph} {pair : String × String} {addition : Addition}
    (between : graph.edgeBetween? pair = some addition) : graph.Admits addition := by
  unfold edgeBetween? at between
  split at between
  · rename_i source target foundSource foundTarget
    cases between
    exact ⟨⟨pair.1, foundSource⟩, pair.2, foundTarget⟩
  · exact nomatch between

section
variable (nodes : List String)

theorem ofNodes_eq_ofAdditions : ofNodes nodes = ofAdditions (nodes.map .node) := by
  rw [ofAdditions, List.foldl_map]
  rfl

theorem admitsAll_nodes : empty.AdmitsAll (nodes.map .node) := by
  induction nodes using List.reverseRecOn with
  | nil => trivial
  | append_singleton nodes key inductionHypothesis =>
    rw [List.map_append]
    exact admitsAll_concat.mpr ⟨inductionHypothesis, trivial⟩

theorem additionsOf_nil : additionsOf nodes [] = nodes.map .node :=
  List.append_nil _

variable (pairs : List (String × String))

theorem edgeBetween?_ofEdges :
    (ofEdges nodes pairs).edgeBetween? = (ofNodes nodes).edgeBetween? := by
  have same : (ofEdges nodes pairs).indexOf? = (ofNodes nodes).indexOf? := by
    induction pairs using List.reverseRecOn with
    | nil => rfl
    | append_singleton pairs pair inductionHypothesis =>
      rw [ofEdges_concat, ← inductionHypothesis]
      unfold addNamedEdge
      split
      · exact indexOf?_addEdge _ _ _
      · rfl
  funext pair
  rw [edgeBetween?, edgeBetween?, same]

theorem additionsOf_concat (pair : String × String) :
    additionsOf nodes (pairs ++ [pair]) =
      additionsOf nodes pairs ++ ((ofEdges nodes pairs).edgeBetween? pair).toList := by
  rw [edgeBetween?_ofEdges, additionsOf, List.filterMap_append, ← List.append_assoc, ← additionsOf,
    List.filterMap_cons]
  rcases (ofNodes nodes).edgeBetween? pair with _ | _ <;> rfl

theorem ofEdges_eq_ofAdditions : ofEdges nodes pairs = ofAdditions (additionsOf nodes pairs) := by
  induction pairs using List.reverseRecOn with
  | nil => rw [additionsOf_nil, ← ofNodes_eq_ofAdditions, ofEdges_nil]
  | append_singleton pairs pair inductionHypothesis =>
    rw [ofEdges_concat, additionsOf_concat, addNamedEdge_eq_foldl, ofAdditions, List.foldl_append,
      ← ofAdditions, ← inductionHypothesis]

theorem admitsAll_additionsOf : empty.AdmitsAll (additionsOf nodes pairs) := by
  induction pairs using List.reverseRecOn with
  | nil => exact additionsOf_nil nodes ▸ admitsAll_nodes nodes
  | append_singleton pairs pair inductionHypothesis =>
    rw [additionsOf_concat]
    rcases between : (ofEdges nodes pairs).edgeBetween? pair with _ | addition
    · exact (List.append_nil (additionsOf nodes pairs)).symm ▸ inductionHypothesis
    · refine admitsAll_concat.mpr ⟨inductionHypothesis, ?_⟩
      rw [← ofAdditions, ← ofEdges_eq_ofAdditions]
      exact admits_of_edgeBetween? between

end

/-- What the graph of names and pairs of names holds: the names, and the pairs of them. -/
structure HoldsPairs (graph : Digraph) (nodes : List String) (pairs : List (String × String)) :
    Prop where
  /-- The names are the given ones, each once. -/
  keys : graph.keys = nodes.eraseDups
  /-- The edges are the pairs of given names, each once. -/
  edges : graph.namedEdges =
    (pairs.filter fun pair => pair.1 ∈ nodes ∧ pair.2 ∈ nodes).eraseDups

/-- After any additions, and in a graph of names and pairs of names, all parts of the graph tell
the same of what was added. -/
theorem parts_agree :
    (∀ additions, empty.AdmitsAll additions → (ofAdditions additions).Tells additions) ∧
      ∀ nodes pairs,
        empty.AdmitsAll (additionsOf nodes pairs) ∧
          ofEdges nodes pairs = ofAdditions (additionsOf nodes pairs) ∧
          (ofEdges nodes pairs).Tells (additionsOf nodes pairs) ∧
          (ofEdges nodes pairs).HoldsPairs nodes pairs := by
  refine ⟨fun _ => tells_ofAdditions, fun nodes pairs => ?_⟩
  have admitted := admitsAll_additionsOf nodes pairs
  have built := ofEdges_eq_ofAdditions nodes pairs
  exact ⟨admitted, built, built ▸ tells_ofAdditions admitted,
    ⟨keys_ofEdges nodes pairs, namedEdges_ofEdges nodes pairs⟩⟩

/-- Two names, the first of them twice, an edge twice and an edge from a node to itself. -/
def sampleAdditions : List Addition :=
  [.node "a", .node "b", .edge 0 1, .node "a", .edge 0 1, .edge 1 1]

theorem admitsAll_sampleAdditions : empty.AdmitsAll sampleAdditions :=
  ⟨trivial, trivial, ⟨⟨"a", rfl⟩, "b", rfl⟩, trivial, ⟨⟨"a", rfl⟩, "b", rfl⟩,
    ⟨⟨"b", rfl⟩, "b", rfl⟩, trivial⟩

theorem parts_agree_of_sampleAdditions :
    empty.AdmitsAll sampleAdditions ∧ (ofAdditions sampleAdditions).Tells sampleAdditions :=
  ⟨admitsAll_sampleAdditions, parts_agree.1 sampleAdditions admitsAll_sampleAdditions⟩

end MigrationGuard.Digraph
