/-
This file shows that the workflow graph of a code base does not depend on the
order in which its source files and their functions are read. All of the graph
comes from the callers in the order of their identities, and those depend on the
definitions of each identity alone. So only the order of definitions that share an
identity counts; where none do, every order gives the same graph, cut paths
included. Nothing is said about the calls within a function, whose order is that
of its text and does count. The edges, the entrypoints and the paths need not be
looked at one by one, since all of them are computed from the list of callers; it
is enough that this list is the same.
-/

import Mathlib.Data.List.Forall2
import MigrationGuard.Proofs.Workflow.Nodes

namespace MigrationGuard

/-! ### Other orders -/

/-- The same module with its functions in some order, each function with its calls as they were. -/
def ExtractedModule.SameButOrder (source other : ExtractedModule) : Prop :=
  source.module = other.module ∧ source.functions.Perm other.functions

/-- The same modules in some order, each with its functions in some order. -/
def ReorderedModules (modules others : List ExtractedModule) : Prop :=
  ∃ between, List.Forall₂ ExtractedModule.SameButOrder modules between ∧ between.Perm others

/-- Modules in another order hold the same definitions in another order. -/
theorem ReorderedModules.perm_definitionsOf {modules others : List ExtractedModule}
    (reordered : ReorderedModules modules others) :
    (definitionsOf modules).Perm (definitionsOf others) := by
  obtain ⟨between, inside, outside⟩ := reordered
  refine List.Perm.trans ?_ (outside.flatMap_right _)
  clear outside
  induction inside with
  | nil => exact List.Perm.refl _
  | cons same _ inductionHypothesis =>
    unfold definitionsOf at inductionHypothesis ⊢
    rw [List.flatMap_cons, List.flatMap_cons, same.1]
    exact (same.2.map _).append inductionHypothesis

/-- Where no identity has two definitions, the definition of an identity is the same in every
order. -/
theorem definitionsWith_eq_of_perm {modules others : List ExtractedModule}
    (same : (definitionsOf modules).Perm (definitionsOf others))
    (distinct : ((definitionsOf modules).map Definition.id).Nodup) (id : String) :
    definitionsWith id modules = definitionsWith id others := by
  have single : definitionsWith id modules =
      ((definitionsOf modules).find? fun definition => Definition.id definition = id).toList :=
    Keyed.withKey_of_nodup distinct id
  have filtered : (definitionsWith id modules).Perm (definitionsWith id others) := same.filter _
  rw [single] at filtered ⊢
  cases found : (definitionsOf modules).find? fun definition => Definition.id definition = id with
  | none =>
    rw [found] at filtered
    exact (List.nil_perm.mp filtered).symm
  | some definition =>
    rw [found] at filtered
    exact List.singleton_perm.mp filtered

/-! ### The same callers -/

/-- Callers depend on the definitions of each identity alone: they are told by those, and stand in
the order of their identities. -/
theorem CallingNode.ofModules_congr {modules others : List ExtractedModule}
    (same : ∀ id, definitionsWith id modules = definitionsWith id others) :
    ofModules modules = ofModules others := by
  have apart : ∀ list : List ExtractedModule, (ofModules list).Nodup := fun list =>
    (ascending_ofModules list).imp fun {left right} (less : left.node.id < right.node.id) equal =>
      String.lt_irrefl left.node.id (by rwa [← equal] at less)
  refine List.Perm.eq_of_pairwise (fun left right _ _ less greater => ?_)
    (ascending_ofModules modules) (ascending_ofModules others) ?_
  · exact absurd (String.lt_trans less greater) (String.lt_irrefl _)
  · refine (List.perm_ext_iff_of_nodup (apart modules) (apart others)).mpr fun caller => ?_
    rw [mem_ofModules_iff, mem_ofModules_iff, same]

/-- In every order of the modules and of the functions in each of them, functions with distinct
identities make up the same workflow graph, whatever bounds the paths to side effects. -/
theorem buildWorkflowGraph_reordered {modules others : List ExtractedModule}
    (reordered : ReorderedModules modules others)
    (distinct : ((definitionsOf modules).map Definition.id).Nodup) (maxHops maxPaths : Nat) :
    buildWorkflowGraph modules maxHops maxPaths = buildWorkflowGraph others maxHops maxPaths := by
  have callers : CallingNode.ofModules modules = CallingNode.ofModules others :=
    CallingNode.ofModules_congr
      (definitionsWith_eq_of_perm reordered.perm_definitionsOf distinct)
  rw [buildWorkflowGraph, buildWorkflowGraph, callers]

/-- Three source files of a shop. Its entrypoint calls two functions, which have side effects. -/
def shopSources : List ExtractedModule :=
  [⟨"app", [⟨"main", 3, "def main()", [⟨"bill", .loop⟩, ⟨"ledger.save", .direct⟩], .empty⟩,
      ⟨"retry", 9, "def retry()", [⟨"main", .conditional⟩], .empty⟩]⟩,
    ⟨"billing", [⟨"bill", 1, "def bill(order)", [⟨"ledger.save", .direct⟩], .ofList [.network]⟩]⟩,
    ⟨"ledger", [⟨"save", 4, "def save(entry)", [], .ofList [.database]⟩]⟩]

/-- The same source files, read from the last one to the first one. -/
def shopSourcesBackwards : List ExtractedModule :=
  (shopSources.map fun source => { source with functions := source.functions.reverse }).reverse

/-- Backwards they make up the same graph, also where only one of its three paths is listed. -/
theorem shopSources_reordered :
    ReorderedModules shopSources shopSourcesBackwards ∧
      ((definitionsOf shopSources).map Definition.id).Nodup ∧
        buildWorkflowGraph shopSources 8 1 = buildWorkflowGraph shopSourcesBackwards 8 1 := by
  have reordered : ReorderedModules shopSources shopSourcesBackwards := by
    refine ⟨_, List.forall₂_map_right_iff.mpr (List.forall₂_same.mpr fun source _ => ?_),
      (List.reverse_perm _).symm⟩
    exact ⟨rfl, (List.reverse_perm _).symm⟩
  have distinct : ((definitionsOf shopSources).map Definition.id).Nodup := by decide
  exact ⟨reordered, distinct, buildWorkflowGraph_reordered reordered distinct 8 1⟩

end MigrationGuard
