/-
This file says which function the name in a call means. A name is looked up as an
identity, then inside the module of the caller, then without its receiver among
the bare names. Each step is taken only where the steps before it found nothing,
so a name means at most one function. A bare name with a dot left in it means
nothing, and where several functions have a bare name it means the one with the
smallest identity, which is the first one as nodes stand in the order of their
identities. Meaning is a relation that does not mention how names are looked up;
the look-up is shown to agree with it, except that a blank name is not looked up
at all, which may deprive a function without a name of its callers.
-/

import MigrationGuard.Proofs.Text.Search
import MigrationGuard.Workflow.Build

namespace MigrationGuard

/-! ### Meanings of names -/

/-- The name is left when a receiver is taken away, if there is one. -/
def StandsBehindReceiver (callee short : String) : Prop :=
  callee = "self." ++ short ∨ callee = "cls." ++ short ∨
    short = callee ∧ ∀ rest, callee ≠ "self." ++ rest ∧ callee ≠ "cls." ++ rest

/-- The identity that a name means for a caller in a module. -/
inductive Means (nodes : List CallNode) (module callee : String) : String → Prop where
  /-- The name is an identity. -/
  | identity (known : callee ∈ nodes.map CallNode.id) : Means nodes module callee callee
  /-- The name is one of the functions in the module of the caller. -/
  | inModule (unknown : callee ∉ nodes.map CallNode.id)
      (known : module ++ "." ++ callee ∈ nodes.map CallNode.id) :
    Means nodes module callee (module ++ "." ++ callee)
  /-- The name without a receiver has no dot in it and is the bare name of a function. Among
  several functions it means the one with the smallest identity. -/
  | bareName (unknown : callee ∉ nodes.map CallNode.id)
      (elsewhere : module ++ "." ++ callee ∉ nodes.map CallNode.id) {short : String}
      (stands : StandsBehindReceiver callee short) (plain : '.' ∉ short.toList) {node : CallNode}
      (member : node ∈ nodes) (named : node.name = short)
      (smallest : ∀ other ∈ nodes, other.name = short → node.id ≤ other.id) :
    Means nodes module callee node.id

/-- A name means a function that is known, so edges end at nodes. -/
theorem Means.known {nodes : List CallNode} {module callee target : String}
    (means : Means nodes module callee target) : target ∈ nodes.map CallNode.id := by
  cases means with
  | identity known => exact known
  | inModule _ known => exact known
  | bareName _ _ _ _ member => exact List.mem_map_of_mem member

section
variable {nodes : List CallNode} {module callee target : String}

theorem means_of_identity (known : callee ∈ nodes.map CallNode.id) :
    Means nodes module callee target ↔ target = callee := by
  constructor
  · intro means
    cases means with
    | identity _ => rfl
    | inModule unknown _ => exact absurd known unknown
    | bareName unknown => exact absurd known unknown
  · rintro rfl
    exact .identity known

theorem means_of_inModule (unknown : callee ∉ nodes.map CallNode.id)
    (known : module ++ "." ++ callee ∈ nodes.map CallNode.id) :
    Means nodes module callee target ↔ target = module ++ "." ++ callee := by
  constructor
  · intro means
    cases means with
    | identity isKnown => exact absurd isKnown unknown
    | inModule _ _ => rfl
    | bareName _ elsewhere => exact absurd known elsewhere
  · rintro rfl
    exact .inModule unknown known

theorem means_of_neither (unknown : callee ∉ nodes.map CallNode.id)
    (elsewhere : module ++ "." ++ callee ∉ nodes.map CallNode.id) :
    Means nodes module callee target ↔ ∃ short, StandsBehindReceiver callee short ∧
      '.' ∉ short.toList ∧ ∃ node ∈ nodes, node.name = short ∧
        (∀ other ∈ nodes, other.name = short → node.id ≤ other.id) ∧ node.id = target := by
  constructor
  · intro means
    cases means with
    | identity known => exact absurd known unknown
    | inModule _ known => exact absurd known elsewhere
    | bareName _ _ stands plain member named smallest =>
      exact ⟨_, stands, plain, _, member, named, smallest, rfl⟩
  · rintro ⟨short, stands, plain, node, member, named, smallest, rfl⟩
    exact .bareName unknown elsewhere stands plain member named smallest

end

/-! ### Looking names up -/

theorem standsBehindReceiver_iff (callee short : String) :
    StandsBehindReceiver callee short ↔ behindReceiver callee = short := by
  have apart : ∀ rest other : String, "self." ++ rest ≠ "cls." ++ other := by
    intro rest other same
    have lists := congrArg String.toList same
    rw [String.toList_append, String.toList_append] at lists
    exact absurd (List.cons.inj lists).1 (by decide)
  have unfolded : behindReceiver callee =
      ((Text.dropStart "self." callee).or (Text.dropStart "cls." callee)).getD callee := by
    simp only [behindReceiver, receivers, List.findSome?_cons, List.findSome?_nil]
    cases Text.dropStart "self." callee <;> cases Text.dropStart "cls." callee <;> rfl
  rw [unfolded]
  rcases own : Text.dropStart "self." callee with _ | rest
  · rcases ofClass : Text.dropStart "cls." callee with _ | rest
    · have notOwn : ∀ rest, callee ≠ "self." ++ rest := fun rest same => by
        rw [(Text.dropStart_eq_some_iff _ _ _).mpr same] at own
        exact nomatch own
      have notOfClass : ∀ rest, callee ≠ "cls." ++ rest := fun rest same => by
        rw [(Text.dropStart_eq_some_iff _ _ _).mpr same] at ofClass
        exact nomatch ofClass
      simp [StandsBehindReceiver, notOwn, notOfClass, eq_comm]
    · have split := (Text.dropStart_eq_some_iff _ _ _).mp ofClass
      simp [StandsBehindReceiver, split, Ne.symm (apart _ _)]
  · have split := (Text.dropStart_eq_some_iff _ _ _).mp own
    simp [StandsBehindReceiver, split, apart]

/-- Where identities ascend, the first node with a property is the one with the smallest
identity. -/
theorem find_eq_some_iff_smallest {nodes : List CallNode}
    (ascending : nodes.Pairwise fun left right => left.id < right.id) (test : CallNode → Bool)
    (node : CallNode) :
    nodes.find? test = some node ↔
      node ∈ nodes ∧ test node ∧ ∀ other ∈ nodes, test other → node.id ≤ other.id := by
  rw [List.find?_eq_some_iff_append]
  constructor
  · rintro ⟨passes, before, after, rfl, none⟩
    refine ⟨by simp, passes, fun other member also => ?_⟩
    rw [List.pairwise_append, List.pairwise_cons] at ascending
    rcases List.mem_append.mp member with early | late
    · exact absurd also (by simpa using none other early)
    · rcases List.mem_cons.mp late with same | later
      · exact same ▸ String.le_refl node.id
      · exact String.lt_asymm (ascending.2.1.1 other later)
  · rintro ⟨member, passes, smallest⟩
    obtain ⟨before, after, rfl⟩ := List.append_of_mem member
    refine ⟨passes, before, after, rfl, fun other early => ?_⟩
    rw [List.pairwise_append] at ascending
    have smaller := ascending.2.2 other early node List.mem_cons_self
    rw [Bool.not_eq_true', Bool.eq_false_iff]
    intro also
    exact smallest other (List.mem_append_left _ early) also smaller

/-- A name is looked up to what it means. Only a blank one has no meaning, whatever it could be
completed to. -/
theorem resolveCallee_eq_some_iff {nodes : List CallNode}
    (ascending : nodes.Pairwise fun left right => left.id < right.id)
    (module callee target : String) :
    resolveCallee? nodes module callee = some target ↔
      Text.trimmed callee ≠ "" ∧ Means nodes module (Text.trimmed callee) target := by
  have known : ∀ id, nodes.any (fun node => node.id == id) = true ↔ id ∈ nodes.map CallNode.id :=
    fun id => by simp [List.any_eq_true, List.mem_map]
  have dotted : ∀ short, Text.contains short "." = true ↔ '.' ∈ short.toList :=
    fun short => Text.occursIn_singleton '.' short.toList
  unfold resolveCallee?
  simp only [CallNode.idOf, known, dotted]
  generalize Text.trimmed callee = name
  by_cases blank : name = ""
  · simp [blank]
  rw [if_neg blank]
  by_cases isKnown : name ∈ nodes.map CallNode.id
  · rw [if_pos isKnown, means_of_identity isKnown]
    simp [blank, eq_comm]
  rw [if_neg isKnown]
  by_cases inModule : module ++ "." ++ name ∈ nodes.map CallNode.id
  · rw [if_pos inModule, means_of_inModule isKnown inModule]
    simp [blank, eq_comm]
  rw [if_neg inModule, means_of_neither isKnown inModule]
  simp only [standsBehindReceiver_iff, exists_eq_left', ne_eq, blank, not_false_eq_true, true_and]
  by_cases plain : '.' ∈ (behindReceiver name).toList
  · simp [plain]
  · rw [if_neg plain, Option.map_eq_some_iff]
    simp only [plain, not_false_eq_true, true_and, find_eq_some_iff_smallest ascending, beq_iff_eq,
      and_assoc]

end MigrationGuard
