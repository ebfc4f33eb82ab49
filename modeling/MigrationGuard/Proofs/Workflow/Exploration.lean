/-
This file follows the search for reachable nodes as a loop that nothing bounds:
while some node waits, the first one leaves the waiting list and lets its unseen
successors wait. The loop comes to an end on every graph, the bounded search gives
what the loop ends with, and this is the set of nodes that some walk from a root
leads to. The bound of the search is the number of edges and roots, which is shown
to be enough: each turn takes a node off the waiting list, and a node waits at
most once. So the bound is no part of what the search means. From walks it follows
that more roots lose no node and that neither their order nor their repetitions
matter, none of which is to be seen in the loop. Walks go along edges that were
added, so the graph may be told by its additions.
-/

import MigrationGuard.Proofs.Workflow.Additions
import MigrationGuard.Proofs.Workflow.Reachability

namespace MigrationGuard.Digraph

/-! ### The loop -/

/-- The loop, started with some nodes seen and some waiting, ends with a list of seen nodes. A node
without a list of successors would stop it for good. -/
inductive Explores (graph : Digraph) : List Nat → List Nat → List Nat → Prop
  /-- Nothing waits, and the loop ends. -/
  | done (seen : List Nat) : Explores graph seen [] seen
  /-- The first waiting node lets its unseen successors wait. -/
  | turn {seen waiting result successors : List Nat} {current : Nat}
      (row : graph.outgoing[current]? = some successors)
      (rest : Explores graph (seen ++ unseen seen successors) (waiting ++ unseen seen successors)
        result) :
      Explores graph seen (current :: waiting) result

/-- The loop ends in one way only, as every turn is determined by what waits. -/
theorem Explores.unique {graph : Digraph} {seen waiting result other : List Nat}
    (explores : graph.Explores seen waiting result) (again : graph.Explores seen waiting other) :
    other = result := by
  induction explores with
  | done seen =>
    cases again
    rfl
  | turn row _ inductionHypothesis =>
    cases again with
    | turn sameRow rest =>
      obtain rfl := Option.some.inj (row.symm.trans sameRow)
      exact inductionHypothesis rest

/-- With enough steps, the bounded search gives what the loop ends with. -/
theorem WellFormed.explores_explore {graph : Digraph} (wellFormed : graph.WellFormed) (steps : Nat)
    {seen waiting : List Nat} (inside : ∀ node ∈ waiting, node < graph.keys.length)
    (enough : waiting.length + (graph.ends \ seen.toFinset).card ≤ steps) :
    graph.Explores seen waiting (graph.explore steps seen waiting) := by
  induction steps generalizing seen waiting with
  | zero =>
    obtain rfl : waiting = [] := List.length_eq_zero_iff.mp (by omega)
    exact .done seen
  | succ steps inductionHypothesis =>
    cases waiting with
    | nil => exact .done seen
    | cons current waiting =>
      have among : ∀ next, graph.Leads current next → next ∈ graph.ends :=
        fun _ => wellFormed.mem_ends
      have fewer := card_unseen_step seen among
      rw [List.length_cons] at enough
      refine .turn (wellFormed.outgoing_getElem? (inside current List.mem_cons_self))
        (inductionHypothesis ?_ (by rw [List.length_append]; omega))
      intro node waits
      rcases List.mem_append.mp waits with waits | isFresh
      · exact inside node (List.mem_cons_of_mem _ waits)
      · exact wellFormed.lt_of_mem_successors (mem_unseen_iff.mp isFresh).1

theorem nodup_explore (graph : Digraph) (steps : Nat) {seen : List Nat} (once : seen.Nodup)
    (waiting : List Nat) : (graph.explore steps seen waiting).Nodup := by
  induction steps generalizing seen waiting with
  | zero => exact once
  | succ steps inductionHypothesis =>
    cases waiting with
    | nil => exact once
    | cons current waiting =>
      refine inductionHypothesis (List.nodup_append.mpr ⟨once, nodup_unseen _ _, ?_⟩) _
      rintro node known other fresh rfl
      exact (mem_unseen_iff.mp fresh).2 known

/-! ### What the loop finds -/

section
variable {graph : Digraph} (wellFormed : graph.WellFormed) {roots : List Nat}
include wellFormed

/-- The loop, started with nodes of the graph, ends, and the bounded search gives what it ends
with. -/
theorem explores_roots_iff (issued : ∀ root ∈ roots, graph.Issues root) {found : List Nat} :
    graph.Explores (unseen [] roots) (unseen [] roots) found ↔
      found = graph.reachableFrom roots := by
  have inside : ∀ node ∈ unseen [] roots, node < graph.keys.length := fun node starts =>
    wellFormed.issues_iff.mp (issued node (mem_unseen_iff.mp starts).1)
  have ends := wellFormed.explores_explore _ inside (graph.enough_steps roots)
  constructor
  · exact ends.unique
  · rintro rfl
    exact ends

theorem issues_of_reaches {root node : Nat} (issued : graph.Issues root)
    (reaches : graph.Reaches root node) : graph.Issues node := by
  cases reaches with
  | refl => exact issued
  | tail _ leads =>
    exact wellFormed.issues_iff.mpr (wellFormed.lt_of_mem_successors leads)

/-- Further roots lose no node, as the walks from the old roots are still there. -/
theorem reachableFrom_subset {more : List Nat} (among : roots ⊆ more) :
    graph.reachableFrom roots ⊆ graph.reachableFrom more := by
  intro node found
  obtain ⟨root, isRoot, reaches⟩ := (mem_reachableFrom_iff wellFormed roots node).mp found
  exact (mem_reachableFrom_iff wellFormed more node).mpr ⟨root, among isRoot, reaches⟩

end

theorem nodup_reachableFrom (graph : Digraph) (roots : List Nat) :
    (graph.reachableFrom roots).Nodup :=
  nodup_explore graph _ (nodup_unseen [] roots) _

/-- In a graph that additions made, the loop ends on all roots in the graph with the set of nodes
that some walk along added edges leads to from a root. More roots give more nodes, and neither the
order of the roots nor their repetitions matter. -/
theorem explores_iff_walks {additions : List Addition} (admitted : empty.AdmitsAll additions)
    (roots : List Nat) :
    let graph := ofAdditions additions
    let leads := fun source target => Addition.edge source target ∈ additions
    ((∀ root ∈ roots, graph.Issues root) →
        (∀ found, graph.Explores (unseen [] roots) (unseen [] roots) found ↔
          found = graph.reachableFrom roots) ∧
        ∀ node ∈ graph.reachableFrom roots, graph.Issues node) ∧
      (graph.reachableFrom roots).Nodup ∧
      (∀ node, node ∈ graph.reachableFrom roots ↔
        ∃ root ∈ roots, Relation.ReflTransGen leads root node) ∧
      (∀ more, roots ⊆ more → graph.reachableFrom roots ⊆ graph.reachableFrom more) ∧
      ∀ others, (∀ root, root ∈ others ↔ root ∈ roots) →
        (graph.reachableFrom others).Perm (graph.reachableFrom roots) := by
  intro graph leads
  have wellFormed : graph.WellFormed := wellFormed_ofAdditions admitted
  have sameLeads : graph.Leads = leads := by
    funext source target
    exact propext (tells_ofAdditions admitted).mem_successors_iff
  have found := mem_reachableFrom_iff wellFormed
  refine ⟨fun issued => ⟨fun _ => explores_roots_iff wellFormed issued, ?_⟩,
    nodup_reachableFrom graph roots, ?_, fun _ => reachableFrom_subset wellFormed, ?_⟩
  · intro node isFound
    obtain ⟨root, isRoot, reaches⟩ := (found roots node).mp isFound
    exact issues_of_reaches wellFormed (issued root isRoot) reaches
  · intro node
    rw [found, Reaches, sameLeads]
  · intro others same
    rw [List.perm_ext_iff_of_nodup (nodup_reachableFrom graph others)
      (nodup_reachableFrom graph roots)]
    intro node
    rw [found, found]
    simp only [same]

/-- Two nodes lead to one another and the second to a third, beside a fourth node. -/
def sampleCycle : List Addition :=
  [.node "a", .node "b", .node "c", .node "d", .edge 0 1, .edge 1 0, .edge 1 2]

theorem admitsAll_sampleCycle : empty.AdmitsAll sampleCycle :=
  ⟨trivial, trivial, trivial, trivial, ⟨⟨"a", rfl⟩, "b", rfl⟩, ⟨⟨"b", rfl⟩, "a", rfl⟩,
    ⟨⟨"b", rfl⟩, "c", rfl⟩, trivial⟩

theorem explores_sampleCycle :
    empty.AdmitsAll sampleCycle ∧ (∀ root ∈ [1, 1], (ofAdditions sampleCycle).Issues root) ∧
      (ofAdditions sampleCycle).Explores [1] [1] [1, 0, 2] := by
  have issued : ∀ root ∈ [1, 1], (ofAdditions sampleCycle).Issues root := by
    intro root isRoot
    obtain rfl : root = 1 := by simpa using isRoot
    exact ⟨"b", rfl⟩
  have ends := ((explores_iff_walks admitsAll_sampleCycle [1, 1]).1 issued).1 [1, 0, 2]
  exact ⟨admitsAll_sampleCycle, issued, ends.mpr (by decide)⟩

end MigrationGuard.Digraph
