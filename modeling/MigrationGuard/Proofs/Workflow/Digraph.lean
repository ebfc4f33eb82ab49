/-
This file says what a directed graph holds, however it was built: every name has
one index, every edge stands once, and the successors and the numbers of incoming
edges are those of the edges. A graph that is built of names and pairs of names
has just the pairs of known names as its edges. The graph keeps its edges several
times over, as a set, as lists of successors and as counts, each for a use of its
own; that these agree is one invariant, which adding a name and adding an edge
both keep. Later files work with the edges in terms of names, where it no longer
matters which index a name has, and with successors for the searches, which run on
indices.
-/

import Mathlib.Data.List.GetD
import Mathlib.Data.List.Induction
import Mathlib.Data.List.Nodup
import MigrationGuard.Workflow.Digraph

namespace MigrationGuard.Digraph

/-! ### Lists without repetitions -/

section
variable {Item : Type} [BEq Item] [LawfulBEq Item]

theorem eraseDups_concat (items : List Item) (item : Item) [Decidable (item ∈ items)] :
    (items ++ [item]).eraseDups =
      if item ∈ items then items.eraseDups else items.eraseDups ++ [item] := by
  rw [List.eraseDups_append]
  by_cases known : item ∈ items
  · simp [known, List.removeAll]
  · simp [known, List.removeAll, List.eraseDups_cons]

theorem nodup_eraseDups (items : List Item) : items.eraseDups.Nodup := by
  classical
  induction items using List.reverseRecOn with
  | nil => exact List.nodup_nil
  | append_singleton items item inductionHypothesis =>
    rw [eraseDups_concat]
    split
    · exact inductionHypothesis
    · rename_i fresh
      refine List.nodup_append.mpr ⟨inductionHypothesis, List.nodup_singleton item, ?_⟩
      intro other member last single same
      rw [same, List.mem_singleton.mp single, List.mem_eraseDups] at member
      exact fresh member

theorem eraseDups_of_nodup {items : List Item} (distinct : items.Nodup) :
    items.eraseDups = items := by
  classical
  induction items using List.reverseRecOn with
  | nil => rfl
  | append_singleton items item inductionHypothesis =>
    obtain ⟨distinct, -, fresh⟩ := List.nodup_append.mp distinct
    rw [eraseDups_concat, inductionHypothesis distinct,
      if_neg fun member => fresh item member item (List.mem_singleton_self item) rfl]

end

/-! ### Well-formed graphs -/

/-- The edges in order of insertion, as pairs of indices. -/
def edges (graph : Digraph) : List (Nat × Nat) :=
  graph.edgeSet.reverse

/-- The five parts of a graph agree, so each of them may be told from the edges and the names. -/
structure WellFormed (graph : Digraph) : Prop where
  /-- No name has two indices. -/
  distinct : graph.keys.Nodup
  /-- A name is looked up where it stands. -/
  lookup : ∀ key index, graph.indexOf? key = some index ↔ graph.keys[index]? = some key
  /-- Every node has a list of successors. -/
  rows : graph.outgoing.length = graph.keys.length
  /-- Every node has a number of incoming edges. -/
  columns : graph.inDegrees.length = graph.keys.length
  /-- No edge stands twice. -/
  once : graph.edges.Nodup
  /-- Edges run between nodes. -/
  inside : ∀ edge ∈ graph.edges, edge.1 < graph.keys.length ∧ edge.2 < graph.keys.length
  /-- The successors of a node are the ends of its edges in order of insertion. -/
  successors : ∀ source, graph.successors source =
    (graph.edges.filter fun edge => edge.1 = source).map Prod.snd
  /-- The edges into a node are counted. -/
  inDegree : ∀ target, graph.inDegree target = graph.edges.countP fun edge => edge.2 = target

theorem wellFormed_empty : empty.WellFormed where
  distinct := List.nodup_nil
  lookup _ _ := iff_of_false nofun nofun
  rows := rfl
  columns := rfl
  once := List.nodup_nil
  inside := nofun
  successors _ := rfl
  inDegree _ := rfl

/-! ### Names and indices -/

namespace WellFormed

section
variable {graph : Digraph} (wellFormed : graph.WellFormed)
include wellFormed

section
variable {key : String} {index : Nat}

theorem indexOf?_eq_none_iff : graph.indexOf? key = none ↔ key ∉ graph.keys := by
  rw [← Option.not_isSome_iff_eq_none, Option.isSome_iff_exists, List.mem_iff_getElem?]
  simp only [wellFormed.lookup]

theorem lt_of_indexOf? (found : graph.indexOf? key = some index) : index < graph.keys.length :=
  (List.getElem?_eq_some_iff.mp ((wellFormed.lookup key index).mp found)).1

theorem key_of_indexOf? (found : graph.indexOf? key = some index) : graph.key index = key := by
  rw [Digraph.key, List.getD_eq_getElem?_getD, (wellFormed.lookup key index).mp found]
  rfl

theorem mem_of_indexOf? (found : graph.indexOf? key = some index) : key ∈ graph.keys :=
  List.mem_of_getElem? ((wellFormed.lookup key index).mp found)

theorem exists_indexOf? (known : key ∈ graph.keys) : ∃ index, graph.indexOf? key = some index :=
  Option.ne_none_iff_exists'.mp fun none => wellFormed.indexOf?_eq_none_iff.mp none known

end

theorem key_injective {first second : Nat} (firstBound : first < graph.keys.length)
    (secondBound : second < graph.keys.length) (same : graph.key first = graph.key second) :
    first = second := by
  rw [Digraph.key, Digraph.key, List.getD_eq_getElem _ _ firstBound,
    List.getD_eq_getElem _ _ secondBound] at same
  exact (List.Nodup.getElem_inj_iff wellFormed.distinct).mp same

theorem mem_successors_iff {source target : Nat} :
    target ∈ graph.successors source ↔ (source, target) ∈ graph.edges := by
  rw [wellFormed.successors, List.mem_map]
  constructor
  · rintro ⟨⟨start, stop⟩, member, rfl⟩
    obtain ⟨member, same⟩ := List.mem_filter.mp member
    rwa [← of_decide_eq_true same]
  · intro member
    exact ⟨_, List.mem_filter.mpr ⟨member, decide_eq_true rfl⟩, rfl⟩

theorem lt_of_mem_successors {source target : Nat} (leads : target ∈ graph.successors source) :
    target < graph.keys.length :=
  (wellFormed.inside _ (wellFormed.mem_successors_iff.mp leads)).2

theorem outgoing_getElem? {node : Nat} (bound : node < graph.keys.length) :
    graph.outgoing[node]? = some (graph.successors node) := by
  rw [← wellFormed.rows] at bound
  rw [Digraph.successors, List.getD_eq_getElem _ _ bound, List.getElem?_eq_getElem bound]

end

/-! ### Nodes -/

/-- A further row with the fallback changes no look-up, be it in or out of range. -/
theorem getD_append_fallback {Row : Type} (rows : List Row) (fallback : Row) (index : Nat) :
    (rows ++ [fallback]).getD index fallback = rows.getD index fallback := by
  rcases Nat.lt_or_ge index rows.length with within | beyond
  · exact List.getD_append _ _ _ _ within
  · rw [List.getD_append_right _ _ _ _ beyond, List.getD_eq_default _ _ beyond]
    cases index - rows.length <;> rfl

theorem getElem?_concat_eq_some_iff {Item : Type} {items : List Item} {last item : Item}
    {index : Nat} : (items ++ [last])[index]? = some item ↔
      items[index]? = some item ∨ index = items.length ∧ last = item := by
  rcases Nat.lt_trichotomy index items.length with within | rfl | beyond
  · rw [List.getElem?_append_left within]
    exact (or_iff_left fun atEnd => Nat.ne_of_lt within atEnd.1).symm
  · simp
  · have shorter : (items ++ [last]).length ≤ index := by
      rw [List.length_append, List.length_singleton]
      exact beyond
    rw [List.getElem?_eq_none shorter, List.getElem?_eq_none (Nat.le_of_lt beyond)]
    exact iff_of_false nofun (not_or.mpr ⟨nofun, fun atEnd => Nat.ne_of_gt beyond atEnd.1⟩)

/-- A new name is looked up at the end of the names. -/
theorem lookup_addNode {graph : Digraph} (wellFormed : graph.WellFormed) {key : String}
    (fresh : key ∉ graph.keys) (other : String) (index : Nat) :
    ((key, graph.keys.length) :: graph.indices).lookup other = some index ↔
      (graph.keys ++ [key])[index]? = some other := by
  rw [getElem?_concat_eq_some_iff, List.lookup_cons]
  by_cases same : other = key
  · subst same
    have absent : ¬ graph.keys[index]? = some other := fun stands =>
      fresh (List.mem_of_getElem? stands)
    simp [absent, eq_comm]
  · have different : ¬ key = other := fun equal => same equal.symm
    rw [beq_false_of_ne same, or_iff_left fun atEnd => different atEnd.2]
    exact wellFormed.lookup other index

theorem addNode {graph : Digraph} (wellFormed : graph.WellFormed) (key : String) :
    (graph.addNode key).1.WellFormed := by
  unfold Digraph.addNode
  rcases found : graph.indexOf? key with _ | index
  · have fresh := wellFormed.indexOf?_eq_none_iff.mp found
    exact
      { distinct := List.nodup_append.mpr ⟨wellFormed.distinct, List.pairwise_singleton _ _,
          fun known member other single same =>
            fresh (List.mem_singleton.mp single ▸ same ▸ member)⟩
        lookup := wellFormed.lookup_addNode fresh
        rows := by simp [wellFormed.rows]
        columns := by simp [wellFormed.columns]
        once := wellFormed.once
        inside := fun edge member => by
          have bounds := wellFormed.inside edge member
          rw [List.length_append]
          exact ⟨Nat.lt_add_right 1 bounds.1, Nat.lt_add_right 1 bounds.2⟩
        successors := fun source =>
          (getD_append_fallback _ _ _).trans (wellFormed.successors source)
        inDegree := fun target =>
          (getD_append_fallback _ _ _).trans (wellFormed.inDegree target) }
  · exact wellFormed

/-! ### Edges -/

theorem getD_modify {Row : Type} (rows : List Row) (change : Row → Row) (fallback : Row)
    {changed : Nat} (bound : changed < rows.length) (index : Nat) :
    (rows.modify changed change).getD index fallback =
      if changed = index then change (rows.getD index fallback) else rows.getD index fallback := by
  rw [List.getD_eq_getElem?_getD, List.getElem?_modify, List.getD_eq_getElem?_getD]
  by_cases same : changed = index
  · subst same
    simp [bound]
  · simp [same]

theorem addEdge {graph : Digraph} (wellFormed : graph.WellFormed) {source target : Nat}
    (sourceBound : source < graph.keys.length) (targetBound : target < graph.keys.length) :
    (graph.addEdge source target).1.WellFormed := by
  unfold Digraph.addEdge
  by_cases known : graph.edgeSet.contains (source, target)
  · rw [if_pos known]
    exact wellFormed
  · rw [if_neg known]
    have fresh : (source, target) ∉ graph.edges := by
      rw [edges, List.mem_reverse]
      exact fun member => known (List.contains_iff_mem.mpr member)
    have added : ((source, target) :: graph.edgeSet).reverse = graph.edges ++ [(source, target)] :=
      List.reverse_cons
    exact
      { distinct := wellFormed.distinct
        lookup := wellFormed.lookup
        rows := (List.length_modify _ _ _).trans wellFormed.rows
        columns := (List.length_modify _ _ _).trans wellFormed.columns
        once := by
          rw [edges, added]
          exact List.nodup_append.mpr ⟨wellFormed.once, List.pairwise_singleton _ _,
            fun edge member other single same =>
              fresh (List.mem_singleton.mp single ▸ same ▸ member)⟩
        inside := fun edge member => by
          rw [edges, added, List.mem_append, List.mem_singleton] at member
          rcases member with member | rfl
          · exact wellFormed.inside edge member
          · exact ⟨sourceBound, targetBound⟩
        successors := fun index => by
          rw [Digraph.successors, getD_modify _ _ _ (wellFormed.rows ▸ sourceBound), edges, added,
            List.filter_append, List.map_append]
          have before := wellFormed.successors index
          rw [Digraph.successors] at before
          rw [before]
          by_cases same : source = index <;> simp [same]
        inDegree := fun index => by
          rw [Digraph.inDegree, getD_modify _ _ _ (wellFormed.columns ▸ targetBound), edges, added,
            List.countP_append]
          have before := wellFormed.inDegree index
          rw [Digraph.inDegree] at before
          rw [before]
          by_cases same : target = index <;> simp [same] }

end WellFormed

/-! ### Edges between names -/

/-- The edges in order of insertion, each as the names of its ends. -/
def namedEdges (graph : Digraph) : List (String × String) :=
  graph.edges.map fun edge => (graph.key edge.1, graph.key edge.2)

theorem keys_addEdge (graph : Digraph) (source target : Nat) :
    (graph.addEdge source target).1.keys = graph.keys := by
  unfold addEdge
  split <;> rfl

theorem keys_addNamedEdge (graph : Digraph) (pair : String × String) :
    (graph.addNamedEdge pair).keys = graph.keys := by
  unfold addNamedEdge
  split
  · exact keys_addEdge graph _ _
  · rfl

theorem edges_addEdge (graph : Digraph) (source target : Nat) :
    (graph.addEdge source target).1.edges =
      if (source, target) ∈ graph.edges then graph.edges
      else graph.edges ++ [(source, target)] := by
  have known : graph.edgeSet.contains (source, target) ↔ (source, target) ∈ graph.edges := by
    rw [edges, List.mem_reverse, List.contains_iff_mem]
  unfold addEdge
  by_cases member : (source, target) ∈ graph.edges
  · rw [if_pos member, if_pos (known.mpr member)]
  · rw [if_neg member, if_neg (mt known.mp member)]
    exact List.reverse_cons

namespace WellFormed

section
variable {graph : Digraph} (wellFormed : graph.WellFormed)
include wellFormed

theorem mem_namedEdges_iff {source target : Nat} (sourceBound : source < graph.keys.length)
    (targetBound : target < graph.keys.length) :
    (graph.key source, graph.key target) ∈ graph.namedEdges ↔ (source, target) ∈ graph.edges := by
  rw [namedEdges, List.mem_map]
  constructor
  · rintro ⟨⟨start, stop⟩, member, same⟩
    have bounds := wellFormed.inside _ member
    obtain ⟨sameStart, sameStop⟩ := Prod.mk.inj same
    rwa [← wellFormed.key_injective bounds.1 sourceBound sameStart,
      ← wellFormed.key_injective bounds.2 targetBound sameStop]
  · intro member
    exact ⟨_, member, rfl⟩

theorem inDegree_eq_zero_iff {target : Nat} (bound : target < graph.keys.length) :
    graph.inDegree target = 0 ↔ ∀ caller, (caller, graph.key target) ∉ graph.namedEdges := by
  rw [wellFormed.inDegree, List.countP_eq_zero]
  constructor
  · intro none caller member
    obtain ⟨edge, isEdge, same⟩ := List.mem_map.mp member
    have inside := (wellFormed.inside edge isEdge).2
    exact none edge isEdge
      (decide_eq_true (wellFormed.key_injective inside bound (Prod.mk.inj same).2))
  · intro none edge isEdge isTarget
    refine none (graph.key edge.1) ?_
    rw [← of_decide_eq_true isTarget]
    exact List.mem_map_of_mem isEdge

theorem addNamedEdge (pair : String × String) : (graph.addNamedEdge pair).WellFormed := by
  unfold Digraph.addNamedEdge
  split
  · rename_i source target foundSource foundTarget
    exact wellFormed.addEdge (wellFormed.lt_of_indexOf? foundSource)
      (wellFormed.lt_of_indexOf? foundTarget)
  · exact wellFormed

/-- A pair of names is added if both names are known and the pair is not. -/
theorem namedEdges_addNamedEdge (pair : String × String) :
    (graph.addNamedEdge pair).namedEdges =
      if pair.1 ∈ graph.keys ∧ pair.2 ∈ graph.keys ∧ pair ∉ graph.namedEdges then
        graph.namedEdges ++ [pair]
      else graph.namedEdges := by
  have keys : (graph.addNamedEdge pair).key = graph.key := by
    funext index
    rw [Digraph.key, Digraph.key, keys_addNamedEdge]
  rw [namedEdges, keys, Digraph.addNamedEdge]
  rcases foundSource : graph.indexOf? pair.1 with _ | source
  · rw [if_neg fun known => wellFormed.indexOf?_eq_none_iff.mp foundSource known.1]
    rfl
  rcases foundTarget : graph.indexOf? pair.2 with _ | target
  · rw [if_neg fun known => wellFormed.indexOf?_eq_none_iff.mp foundTarget known.2.1]
    rfl
  have sourceBound := wellFormed.lt_of_indexOf? foundSource
  have targetBound := wellFormed.lt_of_indexOf? foundTarget
  have names : (graph.key source, graph.key target) = pair := by
    rw [wellFormed.key_of_indexOf? foundSource, wellFormed.key_of_indexOf? foundTarget]
  have sourceKnown := wellFormed.mem_of_indexOf? foundSource
  have targetKnown := wellFormed.mem_of_indexOf? foundTarget
  have isEdge := wellFormed.mem_namedEdges_iff sourceBound targetBound
  rw [names] at isEdge
  dsimp only
  rw [edges_addEdge]
  by_cases member : (source, target) ∈ graph.edges
  · rw [if_pos member, if_neg fun fresh => fresh.2.2 (isEdge.mpr member)]
    rfl
  · rw [if_neg member, if_pos ⟨sourceKnown, targetKnown, mt isEdge.mp member⟩, List.map_append,
      List.map_singleton, names]
    rfl

end

end WellFormed

/-! ### Graphs of names and pairs -/

theorem WellFormed.keys_addNode {graph : Digraph} (wellFormed : graph.WellFormed) (key : String) :
    (graph.addNode key).1.keys =
      if key ∈ graph.keys then graph.keys else graph.keys ++ [key] := by
  unfold Digraph.addNode
  rcases found : graph.indexOf? key with _ | index
  · rw [if_neg (wellFormed.indexOf?_eq_none_iff.mp found)]
  · rw [if_pos (wellFormed.mem_of_indexOf? found)]

theorem edgeSet_addNode (graph : Digraph) (key : String) :
    (graph.addNode key).1.edgeSet = graph.edgeSet := by
  unfold addNode
  split <;> rfl

/-- The graph of a list of names, without any edge yet. -/
def ofNodes (nodes : List String) : Digraph :=
  nodes.foldl (fun graph key => (graph.addNode key).1) empty

theorem ofNodes_concat (nodes : List String) (key : String) :
    ofNodes (nodes ++ [key]) = ((ofNodes nodes).addNode key).1 := by
  rw [ofNodes, List.foldl_append]
  rfl

theorem ofEdges_nil (nodes : List String) : ofEdges nodes [] = ofNodes nodes :=
  rfl

theorem ofEdges_concat (nodes : List String) (pairs : List (String × String))
    (pair : String × String) :
    ofEdges nodes (pairs ++ [pair]) = (ofEdges nodes pairs).addNamedEdge pair := by
  rw [ofEdges, List.foldl_append]
  rfl

theorem wellFormed_ofNodes (nodes : List String) : (ofNodes nodes).WellFormed := by
  induction nodes using List.reverseRecOn with
  | nil => exact wellFormed_empty
  | append_singleton nodes key inductionHypothesis =>
    rw [ofNodes_concat]
    exact inductionHypothesis.addNode key

theorem namedEdges_ofNodes (nodes : List String) : (ofNodes nodes).namedEdges = [] := by
  have none : (ofNodes nodes).edgeSet = [] := by
    induction nodes using List.reverseRecOn with
    | nil => rfl
    | append_singleton nodes key inductionHypothesis =>
      rw [ofNodes_concat, edgeSet_addNode, inductionHypothesis]
  rw [namedEdges, edges, none]
  rfl

theorem keys_ofNodes (nodes : List String) : (ofNodes nodes).keys = nodes.eraseDups := by
  induction nodes using List.reverseRecOn with
  | nil => rfl
  | append_singleton nodes key inductionHypothesis =>
    rw [ofNodes_concat, (wellFormed_ofNodes nodes).keys_addNode, inductionHypothesis,
      eraseDups_concat]
    simp only [List.mem_eraseDups]

theorem wellFormed_ofEdges (nodes : List String) (pairs : List (String × String)) :
    (ofEdges nodes pairs).WellFormed := by
  induction pairs using List.reverseRecOn with
  | nil => exact wellFormed_ofNodes nodes
  | append_singleton pairs pair inductionHypothesis =>
    rw [ofEdges_concat]
    exact inductionHypothesis.addNamedEdge pair

section
variable (nodes : List String) (pairs : List (String × String))

theorem keys_ofEdges : (ofEdges nodes pairs).keys = nodes.eraseDups := by
  induction pairs using List.reverseRecOn with
  | nil => exact keys_ofNodes nodes
  | append_singleton pairs pair inductionHypothesis =>
    rw [ofEdges_concat, keys_addNamedEdge, inductionHypothesis]

/-- The edges of a graph are the pairs of known names, each once, in their order. -/
theorem namedEdges_ofEdges : (ofEdges nodes pairs).namedEdges =
    (pairs.filter fun pair => pair.1 ∈ nodes ∧ pair.2 ∈ nodes).eraseDups := by
  induction pairs using List.reverseRecOn with
  | nil => exact namedEdges_ofNodes nodes
  | append_singleton pairs pair inductionHypothesis =>
    rw [ofEdges_concat, (wellFormed_ofEdges nodes pairs).namedEdges_addNamedEdge, keys_ofEdges,
      inductionHypothesis, List.filter_append]
    by_cases known : pair.1 ∈ nodes ∧ pair.2 ∈ nodes
    · simp only [List.filter_singleton, known, decide_true, cond_true, eraseDups_concat,
        List.mem_eraseDups, true_and, ite_not]
    · have unknown : ¬ (pair.1 ∈ nodes.eraseDups ∧ pair.2 ∈ nodes.eraseDups ∧
          pair ∉ (pairs.filter fun pair => pair.1 ∈ nodes ∧ pair.2 ∈ nodes).eraseDups) :=
        fun fresh => known ⟨List.mem_eraseDups.mp fresh.1, List.mem_eraseDups.mp fresh.2.1⟩
      rw [if_neg unknown, List.filter_singleton, decide_eq_false known]
      exact congrArg List.eraseDups (List.append_nil _).symm

theorem mem_namedEdges_ofEdges {edge : String × String} :
    edge ∈ (ofEdges nodes pairs).namedEdges ↔ edge ∈ pairs ∧ edge.1 ∈ nodes ∧ edge.2 ∈ nodes := by
  rw [namedEdges_ofEdges, List.mem_eraseDups, List.mem_filter, decide_eq_true_iff]

end

end MigrationGuard.Digraph
