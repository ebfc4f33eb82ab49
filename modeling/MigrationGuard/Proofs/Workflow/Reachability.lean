/-
This file shows that the search for reachable nodes finds just the nodes that some
walk leads to. The nodes seen and not waiting have all their successors seen, and
the nodes that can still wait bound the steps, so the search ends with nothing
waiting and the seen nodes closed under edges. Only nodes that are the end of some
edge, and the roots, can ever wait, each of them once; that is why the number of
edges and roots is enough for the steps. What is closed under edges contains all
walks from the roots, and nothing is seen that no walk leads to. The result is
carried over to names, as the functions of a workflow are told by their identities
and not by indices.
-/

import Mathlib.Data.Finset.Card
import Mathlib.Logic.Relation
import MigrationGuard.Proofs.Workflow.Digraph

namespace MigrationGuard.Digraph

/-- An edge leads from one node to another, by their indices. -/
def Leads (graph : Digraph) (source target : Nat) : Prop :=
  target ∈ graph.successors source

/-- Some walk along edges, possibly without any, leads from one node to another. -/
def Reaches (graph : Digraph) : Nat → Nat → Prop :=
  Relation.ReflTransGen graph.Leads

/-! ### Fresh nodes -/

theorem mem_unseen_iff {seen indices : List Nat} {index : Nat} :
    index ∈ unseen seen indices ↔ index ∈ indices ∧ index ∉ seen := by
  induction indices generalizing seen with
  | nil => simp [unseen]
  | cons first rest inductionHypothesis =>
    unfold unseen
    by_cases known : seen.contains first
    · rw [if_pos known, inductionHypothesis]
      have isSeen : first ∈ seen := List.contains_iff_mem.mp known
      constructor
      · exact fun ⟨among, fresh⟩ => ⟨List.mem_cons_of_mem _ among, fresh⟩
      · rintro ⟨among, fresh⟩
        refine ⟨(List.mem_cons.mp among).resolve_left fun same => fresh (same ▸ isSeen), fresh⟩
    · rw [if_neg known, List.mem_cons, inductionHypothesis, List.mem_cons, List.mem_cons]
      have notSeen : first ∉ seen := fun member => known (List.contains_iff_mem.mpr member)
      by_cases same : index = first
      · simp [same, notSeen]
      · simp [same]

theorem nodup_unseen (seen indices : List Nat) : (unseen seen indices).Nodup := by
  induction indices generalizing seen with
  | nil => exact List.nodup_nil
  | cons first rest inductionHypothesis =>
    unfold unseen
    split
    · exact inductionHypothesis seen
    · refine List.nodup_cons.mpr ⟨fun member => ?_, inductionHypothesis _⟩
      exact (mem_unseen_iff.mp member).2 List.mem_cons_self

/-! ### The search -/

/-- The search has come so far: what waits was seen, and what was seen and does not wait has passed
on to all its successors. -/
structure Explored (graph : Digraph) (seen waiting : List Nat) : Prop where
  /-- What waits was seen. -/
  waits : ∀ node ∈ waiting, node ∈ seen
  /-- What does not wait is settled. -/
  settled : ∀ node ∈ seen, node ∉ waiting → ∀ next, graph.Leads node next → next ∈ seen

theorem Explored.step {graph : Digraph} {seen waiting : List Nat} {current : Nat}
    (explored : graph.Explored seen (current :: waiting)) :
    let fresh := unseen seen (graph.successors current)
    graph.Explored (seen ++ fresh) (waiting ++ fresh) := by
  intro fresh
  constructor
  · intro node waits
    rcases List.mem_append.mp waits with waits | isFresh
    · exact List.mem_append_left _ (explored.waits node (List.mem_cons_of_mem _ waits))
    · exact List.mem_append_right _ isFresh
  · intro node isSeen notWaiting next leads
    rw [List.mem_append, not_or] at notWaiting
    have before := (List.mem_append.mp isSeen).resolve_right notWaiting.2
    by_cases known : next ∈ seen
    · exact List.mem_append_left _ known
    · refine List.mem_append_right _ (mem_unseen_iff.mpr ⟨?_, known⟩)
      by_cases isCurrent : node = current
      · rwa [← isCurrent]
      · refine absurd (explored.settled node before ?_ next leads) known
        rw [List.mem_cons, not_or]
        exact ⟨isCurrent, notWaiting.1⟩

/-- The nodes that were not seen and that some edge leads to can still wait. -/
theorem card_unseen_step {targets : Finset Nat} (seen : List Nat) {successors : List Nat}
    (among : ∀ next ∈ successors, next ∈ targets) :
    (targets \ (seen ++ unseen seen successors).toFinset).card + (unseen seen successors).length =
      (targets \ seen.toFinset).card := by
  have split : targets \ seen.toFinset =
      targets \ (seen ++ unseen seen successors).toFinset ∪ (unseen seen successors).toFinset := by
    ext node
    simp only [Finset.mem_union, Finset.mem_sdiff, List.mem_toFinset, List.mem_append,
      mem_unseen_iff]
    constructor
    · rintro ⟨isTarget, notSeen⟩
      by_cases next : node ∈ successors
      · exact .inr ⟨next, notSeen⟩
      · exact .inl ⟨isTarget, fun known => known.elim notSeen fun fresh => next fresh.1⟩
    · rintro (⟨isTarget, unknown⟩ | ⟨next, notSeen⟩)
      · exact ⟨isTarget, fun known => unknown (.inl known)⟩
      · exact ⟨among node next, notSeen⟩
  rw [split, Finset.card_union_of_disjoint, List.toFinset_card_of_nodup (nodup_unseen _ _)]
  refine Finset.disjoint_left.mpr fun node rest fresh => ?_
  rw [Finset.mem_sdiff, List.mem_toFinset, List.mem_append, not_or] at rest
  exact rest.2.2 (List.mem_toFinset.mp fresh)

theorem Explored.closed {graph : Digraph} {seen : List Nat} (explored : graph.Explored seen [])
    {start node : Nat} (isSeen : start ∈ seen) (reaches : graph.Reaches start node) :
    node ∈ seen := by
  induction reaches with
  | refl => exact isSeen
  | tail _ leads inductionHypothesis =>
    exact explored.settled _ inductionHypothesis List.not_mem_nil _ leads

/-- A search with enough steps ends with the nodes seen before and all that they reach. -/
theorem mem_explore_iff {graph : Digraph} {targets : Finset Nat}
    (among : ∀ source target, graph.Leads source target → target ∈ targets) (steps : Nat)
    {seen waiting : List Nat} (explored : graph.Explored seen waiting)
    (enough : waiting.length + (targets \ seen.toFinset).card ≤ steps) (node : Nat) :
    node ∈ graph.explore steps seen waiting ↔ ∃ start ∈ seen, graph.Reaches start node := by
  induction steps generalizing seen waiting with
  | zero =>
    obtain rfl : waiting = [] := List.length_eq_zero_iff.mp (by omega)
    exact ⟨fun isSeen => ⟨node, isSeen, .refl⟩,
      fun ⟨_, isSeen, reaches⟩ => explored.closed isSeen reaches⟩
  | succ steps inductionHypothesis =>
    cases waiting with
    | nil =>
      exact ⟨fun isSeen => ⟨node, isSeen, .refl⟩,
        fun ⟨_, isSeen, reaches⟩ => explored.closed isSeen reaches⟩
    | cons current waiting =>
      -- What a step puts on the waiting list it takes from the nodes that can still wait, and the
      -- current node leaves the list for good.
      have fewer := card_unseen_step seen (among current)
      rw [List.length_cons] at enough
      rw [explore, inductionHypothesis explored.step (by rw [List.length_append]; omega)]
      constructor
      · rintro ⟨start, isSeen, reaches⟩
        rcases List.mem_append.mp isSeen with isSeen | isFresh
        · exact ⟨start, isSeen, reaches⟩
        · refine ⟨current, explored.waits current List.mem_cons_self, .head ?_ reaches⟩
          exact (mem_unseen_iff.mp isFresh).1
      · rintro ⟨start, isSeen, reaches⟩
        exact ⟨start, List.mem_append_left _ isSeen, reaches⟩

/-- The nodes that some edge leads to. Besides the roots only they can wait. -/
def ends (graph : Digraph) : Finset Nat :=
  (graph.edges.map Prod.snd).toFinset

theorem WellFormed.mem_ends {graph : Digraph} (wellFormed : graph.WellFormed)
    {source target : Nat} (leads : graph.Leads source target) : target ∈ graph.ends := by
  rw [ends, List.mem_toFinset]
  exact List.mem_map_of_mem (wellFormed.mem_successors_iff.mp leads)

/-- The edges and the roots are as many as the nodes that wait and can still wait at first. -/
theorem enough_steps (graph : Digraph) (roots : List Nat) :
    (unseen [] roots).length + (graph.ends \ (unseen [] roots).toFinset).card ≤
      graph.edgeSet.length + roots.length := by
  have fewerRoots : (unseen [] roots).length ≤ roots.length :=
    (nodup_unseen [] roots).length_le_of_subset fun root member => (mem_unseen_iff.mp member).1
  have fewerTargets : (graph.ends \ (unseen [] roots).toFinset).card ≤ graph.edgeSet.length := by
    refine (Finset.card_le_card Finset.sdiff_subset).trans ((List.toFinset_card_le _).trans ?_)
    rw [List.length_map, edges, List.length_reverse]
  omega

/-- The nodes that are found are those that some walk from a root leads to. -/
theorem mem_reachableFrom_iff {graph : Digraph} (wellFormed : graph.WellFormed) (roots : List Nat)
    (node : Nat) :
    node ∈ graph.reachableFrom roots ↔ ∃ root ∈ roots, graph.Reaches root node := by
  have starts : graph.Explored (unseen [] roots) (unseen [] roots) :=
    ⟨fun _ waits => waits, fun _ isSeen notWaiting => absurd isSeen notWaiting⟩
  rw [reachableFrom,
    mem_explore_iff (fun _ _ => wellFormed.mem_ends) _ starts (graph.enough_steps roots)]
  simp only [mem_unseen_iff, List.not_mem_nil, not_false_iff, and_true]

/-! ### Walks between names -/

/-- Some walk along edges leads from one name to another. -/
def NamesReach (graph : Digraph) : String → String → Prop :=
  Relation.ReflTransGen fun source target => (source, target) ∈ graph.namedEdges

section
variable {graph : Digraph} (wellFormed : graph.WellFormed)
include wellFormed

theorem namesReach_of_reaches {start node : Nat} (reaches : graph.Reaches start node) :
    graph.NamesReach (graph.key start) (graph.key node) := by
  unfold Reaches at reaches
  refine reaches.lift graph.key fun source target leads => ?_
  exact List.mem_map_of_mem (wellFormed.mem_successors_iff.mp leads)

theorem exists_reaches {start : Nat} (bound : start < graph.keys.length) {name : String}
    (reach : graph.NamesReach (graph.key start) name) :
    ∃ node < graph.keys.length, graph.key node = name ∧ graph.Reaches start node := by
  induction reach with
  | refl => exact ⟨start, bound, rfl, .refl⟩
  | tail _ step inductionHypothesis =>
    obtain ⟨middle, middleBound, rfl, reaches⟩ := inductionHypothesis
    obtain ⟨⟨source, target⟩, member, same⟩ := List.mem_map.mp step
    obtain ⟨sameSource, sameTarget⟩ := Prod.mk.inj same
    have inside := wellFormed.inside _ member
    obtain rfl := wellFormed.key_injective inside.1 middleBound sameSource
    exact ⟨target, inside.2, sameTarget, reaches.tail (wellFormed.mem_successors_iff.mpr member)⟩

theorem reaches_iff_namesReach {start node : Nat} (startBound : start < graph.keys.length)
    (nodeBound : node < graph.keys.length) :
    graph.Reaches start node ↔ graph.NamesReach (graph.key start) (graph.key node) := by
  refine ⟨namesReach_of_reaches wellFormed, fun reach => ?_⟩
  obtain ⟨other, otherBound, same, reaches⟩ := exists_reaches wellFormed startBound reach
  rwa [← wellFormed.key_injective otherBound nodeBound same]

end

end MigrationGuard.Digraph
