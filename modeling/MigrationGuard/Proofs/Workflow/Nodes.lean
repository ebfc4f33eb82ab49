/-
This file says which nodes a list of modules makes up. Definitions with one
identity belong to one node: the first of them gives its name, module, line and
signature, all of them give their side effects and their calls. The nodes stand in
the order of their identities. An identity is made of the module and the name with
a dot between them, so several definitions can share one; what counts is which
definition comes first when the modules are read in their order. Callers are nodes
together with their calls and are gathered by identity, and what the gathered
caller of an identity is made of can be said in terms of its definitions. Kinds
follow from names and effects and are told anew when effects are added.
-/

import MigrationGuard.Proofs.Keyed
import MigrationGuard.Workflow.Build

namespace MigrationGuard

/-! ### Definitions -/

/-- A definition: the name of its module and the function, as it was extracted. -/
abbrev Definition := String × ExtractedFunction

/-- The identity that a definition belongs to, which several definitions may share. -/
def Definition.id (definition : Definition) : String :=
  definition.1 ++ "." ++ definition.2.name

/-- All definitions of a list of modules, in the order in which they are read. -/
def definitionsOf (modules : List ExtractedModule) : List Definition :=
  modules.flatMap fun source => source.functions.map fun function => (source.module, function)

/-- The definitions that belong to an identity, in order. The first of them gives most of the node.
-/
def definitionsWith (id : String) (modules : List ExtractedModule) : List Definition :=
  (definitionsOf modules).filter fun definition => Definition.id definition = id

/-- The calls that all definitions of an identity make, in the order of the definitions. -/
def callsOf (id : String) (modules : List ExtractedModule) : List CallSite :=
  (definitionsWith id modules).flatMap fun definition => definition.2.calls

/-- The node is what the definitions of its identity make up, of which the first is set apart. -/
structure CallNode.MadeOf (node : CallNode) (first : Definition) (later : List Definition) :
    Prop where
  /-- The name is that of the first definition. -/
  name : node.name = first.2.name
  /-- The module is that of the first definition. -/
  module : node.module = first.1
  /-- The line is that of the first definition. -/
  line : node.line = first.2.line
  /-- The signature is that of the first definition. -/
  signature : node.signature = first.2.signature
  /-- The side effects are those of all definitions. -/
  effects : ∀ effect, node.effects.contains effect ↔
    ∃ definition ∈ first :: later, definition.2.effects.contains effect
  /-- The kind follows from the name and all side effects. -/
  kind : node.kind = .classify node.name node.effects

theorem CallNode.MadeOf.unique {left right : CallNode} {first : Definition}
    {later : List Definition} (leftMade : left.MadeOf first later)
    (rightMade : right.MadeOf first later) (same : left.id = right.id) : left = right := by
  have effects : left.effects = right.effects := EffectSet.ext_contains fun effect =>
    Bool.eq_iff_iff.mpr ((leftMade.effects effect).trans (rightMade.effects effect).symm)
  have name := leftMade.name.trans rightMade.name.symm
  have kind : left.kind = right.kind := by rw [leftMade.kind, rightMade.kind, name, effects]
  cases left
  cases right
  simp_all only [CallNode.mk.injEq, true_and]
  exact ⟨leftMade.module.trans rightMade.module.symm, leftMade.line.trans rightMade.line.symm,
    leftMade.signature.trans rightMade.signature.symm⟩

/-! ### Gathering definitions -/

namespace CallingNode

/-- The identity of a node with its calls. -/
def id (caller : CallingNode) : String :=
  caller.node.id

/-- The node of a definition with its calls. -/
def ofPair (definition : Definition) : CallingNode :=
  ofDefinition definition.1 definition.2

theorem merge_eq (callers : List CallingNode) (definition : CallingNode) :
    merge callers definition = Keyed.merge id absorb callers definition := by
  induction callers with
  | nil => rfl
  | cons first rest inductionHypothesis =>
    rw [merge, Keyed.merge, inductionHypothesis]
    rfl

theorem ofModules_eq (modules : List ExtractedModule) :
    ofModules modules = (Keyed.gather id absorb ((definitionsOf modules).map ofPair)).mergeSort
      fun left right => Text.atMost left.node.id right.node.id := by
  have definitions : (modules.flatMap fun source =>
      source.functions.map (ofDefinition source.module)) = (definitionsOf modules).map ofPair := by
    simp only [definitionsOf, List.map_flatMap, List.map_map]
    rfl
  have merged : merge = Keyed.merge id absorb := by
    funext callers definition
    exact merge_eq callers definition
  rw [ofModules, definitions, merged]
  rfl

theorem withKey_map_ofPair (modules : List ExtractedModule) (wanted : String) :
    Keyed.withKey id wanted ((definitionsOf modules).map ofPair) =
      (definitionsWith wanted modules).map ofPair := by
  rw [Keyed.withKey, List.filter_map]
  rfl

/-- Absorbing definitions adds their effects and calls, and nothing else changes. -/
theorem foldl_absorb (caller : CallingNode) (later : List Definition) :
    let all := (later.map ofPair).foldl absorb caller
    all.node = { caller.node with effects := all.node.effects, kind := all.node.kind } ∧
      (∀ effect, all.node.effects.contains effect ↔ caller.node.effects.contains effect ∨
        ∃ definition ∈ later, definition.2.effects.contains effect) ∧
      (caller.node.kind = .classify caller.node.name caller.node.effects →
        all.node.kind = .classify all.node.name all.node.effects) ∧
      all.calls = caller.calls ++ later.flatMap fun definition => definition.2.calls := by
  induction later generalizing caller with
  | nil => simp
  | cons definition later inductionHypothesis =>
    have step := inductionHypothesis (caller.absorb (ofPair definition))
    rw [List.map_cons, List.foldl_cons]
    obtain ⟨node, effects, kind, calls⟩ := step
    refine ⟨node, fun effect => ?_, fun _ => kind rfl, ?_⟩
    · rw [effects]
      simp only [absorb, EffectSet.contains_union, Bool.or_eq_true, List.mem_cons,
        exists_eq_or_imp, or_assoc]
      rfl
    · rw [calls, List.flatMap_cons, ← List.append_assoc]
      rfl

theorem id_absorb (first later : CallingNode) : (first.absorb later).id = first.id :=
  rfl

/-- What the definitions of an identity make up: a node, and the calls that go with it. -/
theorem madeOf_foldl (first : Definition) (later : List Definition) :
    let all := (later.map ofPair).foldl absorb (ofPair first)
    all.node.id = Definition.id first ∧ all.node.MadeOf first later ∧
      all.calls = (first :: later).flatMap fun definition => definition.2.calls := by
  obtain ⟨node, effects, kind, calls⟩ := foldl_absorb (ofPair first) later
  refine ⟨by rw [node]; rfl, ⟨by rw [node]; rfl, by rw [node]; rfl, by rw [node]; rfl,
    by rw [node]; rfl, fun effect => ?_, kind rfl⟩, calls⟩
  rw [effects]
  simp only [List.mem_cons, exists_eq_or_imp]
  rfl

theorem mem_ofModules_iff (modules : List ExtractedModule) (caller : CallingNode) :
    caller ∈ ofModules modules ↔ ∃ first later,
      definitionsWith caller.node.id modules = first :: later ∧
        (later.map ofPair).foldl absorb (ofPair first) = caller := by
  rw [ofModules_eq, List.mem_mergeSort, Keyed.mem_gather id_absorb, withKey_map_ofPair]
  show Keyed.absorbed? absorb ((definitionsWith caller.node.id modules).map ofPair) = some caller ↔
    _
  rcases definitionsWith caller.node.id modules with _ | ⟨first, later⟩
  · simp [Keyed.absorbed?]
  · simp only [Keyed.absorbed?, List.map_cons, Option.some.injEq, List.cons.injEq]
    constructor
    · intro same
      exact ⟨first, later, ⟨rfl, rfl⟩, same⟩
    · rintro ⟨_, _, ⟨rfl, rfl⟩, same⟩
      exact same

theorem calls_of_mem {modules : List ExtractedModule} {caller : CallingNode}
    (member : caller ∈ ofModules modules) : caller.calls = callsOf caller.node.id modules := by
  obtain ⟨first, later, definitions, same⟩ := (mem_ofModules_iff modules caller).mp member
  rw [callsOf, definitions, ← (madeOf_foldl first later).2.2, same]

end CallingNode

/-! ### Nodes of a graph -/

theorem ascending_ofModules (modules : List ExtractedModule) :
    (CallingNode.ofModules modules).Pairwise fun left right => left.node.id < right.node.id := by
  have sorted : (CallingNode.ofModules modules).Pairwise fun left right =>
      left.node.id ≤ right.node.id := by
    rw [CallingNode.ofModules_eq]
    exact Text.pairwise_mergeSort CallingNode.id _
  have distinct : (CallingNode.ofModules modules).Pairwise fun left right =>
      left.node.id ≠ right.node.id := by
    have same := (List.mergeSort_perm (Keyed.gather CallingNode.id CallingNode.absorb
      ((definitionsOf modules).map CallingNode.ofPair))
      fun left right => Text.atMost left.node.id right.node.id).map CallingNode.id
    rw [← CallingNode.ofModules_eq] at same
    exact List.pairwise_map.mp (same.nodup_iff.mpr
      (Keyed.nodup_keys_gather CallingNode.id_absorb _))
  refine (sorted.and distinct).imp ?_
  rintro left right ⟨ordered, different⟩
  refine Decidable.byContradiction fun notLess => different ?_
  exact String.le_antisymm ordered (String.not_lt.mp notLess)

theorem mem_nodes_iff (modules : List ExtractedModule) (node : CallNode) :
    node ∈ (CallingNode.ofModules modules).map CallingNode.node ↔ ∃ first later,
      definitionsWith node.id modules = first :: later ∧ node.MadeOf first later := by
  rw [List.mem_map]
  constructor
  · rintro ⟨caller, member, rfl⟩
    obtain ⟨first, later, definitions, same⟩ := (CallingNode.mem_ofModules_iff _ _).mp member
    refine ⟨first, later, definitions, ?_⟩
    rw [← same]
    exact (CallingNode.madeOf_foldl first later).2.1
  · rintro ⟨first, later, definitions, made⟩
    obtain ⟨id, madeAlso, -⟩ := CallingNode.madeOf_foldl first later
    have belongs : Definition.id first = node.id := by
      have member : first ∈ definitionsWith node.id modules := by
        rw [definitions]
        exact List.mem_cons_self
      simpa [definitionsWith] using (List.mem_filter.mp member).2
    have same := madeAlso.unique made (id.trans belongs)
    refine ⟨_, (CallingNode.mem_ofModules_iff _ _).mpr ⟨first, later, ?_, rfl⟩, same⟩
    rw [same]
    exact definitions

end MigrationGuard
