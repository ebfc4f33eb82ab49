/-
This file names the nodes of a syntax tree by their addresses. An address says at
each level which part of the node is entered. The addresses of a tree can be
listed so that a node comes before its parts and the parts in the order of the
text; this is the lexicographic order of addresses, and every node is listed once.
The nodes around an address are listed from the innermost one outwards. What a
reader collects while it walks through a tree can then be told as what each
address gives at its place: if a walk gives something for a node and then walks
through the parts, it gives what is found along the list of addresses. So
statements about collected items become statements about single addresses, and
their order is that of addresses.
-/

import Mathlib.Data.List.Basic
import MigrationGuard.Source.Python.Tree

namespace MigrationGuard.Python.Tree

/-! ### Parts -/

/-- The parts of a node, in the order of the text. -/
def children : Tree → List Tree
  | .identifier _ => []
  | .attribute object _ => [object]
  | .call function arguments => function :: arguments
  | .definition _ _ _ parts => parts
  | .loop parts => parts
  | .branch parts => parts
  | .group parts => parts

/-- What holds of a node whenever it holds of its parts holds of every tree. -/
theorem children_induction {property : Tree → Prop}
    (step : ∀ tree : Tree, (∀ child ∈ tree.children, property child) → property tree)
    (tree : Tree) : property tree := by
  refine Tree.rec (motive_1 := property) (motive_2 := fun trees => ∀ child ∈ trees, property child)
    ?name ?attributeOf ?call ?definition ?loop ?branch ?group ?nil ?cons tree
  case name => exact fun _ => step _ fun _ member => nomatch member
  case attributeOf =>
    exact fun _ _ object => step _ fun child member => List.mem_singleton.mp member ▸ object
  case call =>
    intro _ _ function arguments
    refine step _ fun child member => ?_
    obtain rfl | among := List.mem_cons.mp member
    · exact function
    · exact arguments child among
  case definition => exact fun _ _ _ _ parts => step _ parts
  case loop => exact fun _ parts => step _ parts
  case branch => exact fun _ parts => step _ parts
  case group => exact fun _ parts => step _ parts
  case nil => exact fun _ member => nomatch member
  case cons =>
    intro _ _ first rest child member
    obtain rfl | among := List.mem_cons.mp member
    · exact first
    · exact rest child among

/-! ### Addresses -/

/-- The node at an address, if the address leads to one. -/
def at? : Tree → List Nat → Option Tree
  | tree, [] => some tree
  | tree, part :: address => (tree.children[part]?).bind fun child => child.at? address

/-- The nodes around the node at an address, the innermost first and the whole tree last. -/
def around : Tree → List Nat → List Tree
  | _, [] => []
  | tree, part :: address =>
    match tree.children[part]? with
    | none => []
    | some child => child.around address ++ [tree]

mutual

/-- The addresses of all nodes of a tree, a node before its parts. -/
def addresses : Tree → List (List Nat)
  | .identifier _ => [[]]
  | .attribute object _ => [] :: object.addresses.map (List.cons 0)
  | .call function arguments =>
    [] :: (function.addresses.map (List.cons 0) ++ addressesOf 1 arguments)
  | .definition _ _ _ parts => [] :: addressesOf 0 parts
  | .loop parts => [] :: addressesOf 0 parts
  | .branch parts => [] :: addressesOf 0 parts
  | .group parts => [] :: addressesOf 0 parts

/-- The addresses of all nodes of consecutive parts, where the number of the first part is given. -/
def addressesOf (number : Nat) : List Tree → List (List Nat)
  | [] => []
  | tree :: trees => tree.addresses.map (List.cons number) ++ addressesOf (number + 1) trees

end

theorem addresses_eq (tree : Tree) : tree.addresses = [] :: addressesOf 0 tree.children := by
  cases tree <;> simp [addresses, addressesOf, children]

theorem mem_addressesOf {trees : List Tree} {number : Nat} {address : List Nat} :
    address ∈ addressesOf number trees ↔
      ∃ part child path, trees[part]? = some child ∧ path ∈ child.addresses ∧
        address = (number + part) :: path := by
  induction trees generalizing number with
  | nil => simp [addressesOf]
  | cons tree trees inductionHypothesis =>
    rw [addressesOf, List.mem_append, List.mem_map, inductionHypothesis]
    constructor
    · rintro (⟨path, member, rfl⟩ | ⟨part, child, path, found, member, rfl⟩)
      · exact ⟨0, tree, path, rfl, member, rfl⟩
      · exact ⟨part + 1, child, path, found, member, by rw [Nat.add_right_comm]; rfl⟩
    · rintro ⟨_ | part, child, path, found, member, rfl⟩
      · obtain rfl : tree = child := Option.some.inj found
        exact Or.inl ⟨path, member, rfl⟩
      · exact Or.inr ⟨part, child, path, found, member, by rw [Nat.add_right_comm]; rfl⟩

/-- The addresses that are listed are those at which there is a node. -/
theorem mem_addresses {tree : Tree} {address : List Nat} :
    address ∈ tree.addresses ↔ (tree.at? address).isSome := by
  induction address generalizing tree with
  | nil => simp [addresses_eq, at?]
  | cons part address inductionHypothesis =>
    rw [addresses_eq, List.mem_cons, mem_addressesOf, at?]
    cases found : tree.children[part]? with
    | none => simp_all
    | some child => simp_all

/-! ### The order of the text -/

theorem pairwise_lt_addressesOf {trees : List Tree}
    (each : ∀ tree ∈ trees, tree.addresses.Pairwise (· < ·)) (number : Nat) :
    (addressesOf number trees).Pairwise (· < ·) := by
  induction trees generalizing number with
  | nil => exact List.Pairwise.nil
  | cons tree trees inductionHypothesis =>
    rw [addressesOf, List.pairwise_append]
    refine ⟨?_, inductionHypothesis (fun other member => each other (List.mem_cons_of_mem _ member))
      _, ?_⟩
    · refine List.pairwise_map.mpr ((each tree List.mem_cons_self).imp fun before => ?_)
      exact List.cons_lt_cons_iff.mpr (Or.inr ⟨rfl, before⟩)
    · intro address inFirst later inRest
      obtain ⟨path, -, rfl⟩ := List.mem_map.mp inFirst
      obtain ⟨part, child, rest, -, -, rfl⟩ := mem_addressesOf.mp inRest
      exact List.cons_lt_cons_iff.mpr (Or.inl (by omega))

/-- The addresses are listed in lexicographic order, each of them once, so the order of a list is
that of the text. -/
theorem pairwise_lt_addresses (tree : Tree) : tree.addresses.Pairwise (· < ·) := by
  induction tree using children_induction with
  | step tree inductionHypothesis =>
    rw [addresses_eq, List.pairwise_cons]
    refine ⟨fun address member => ?_, pairwise_lt_addressesOf inductionHypothesis 0⟩
    obtain ⟨part, child, path, -, -, rfl⟩ := mem_addressesOf.mp member
    exact List.nil_lt_cons _ _

/-! ### What is listed along the addresses -/

/-- What is listed along the addresses of consecutive parts is listed part by part. -/
theorem flatMap_addressesOf {Item : Type} {trees : List Tree} {number : Nat}
    {give : List Nat → List Item} {giveOf : Tree → List Nat → List Item}
    (same : ∀ part child, trees[part]? = some child →
      ∀ path, give ((number + part) :: path) = giveOf child path) :
    (addressesOf number trees).flatMap give =
      trees.flatMap fun child => child.addresses.flatMap (giveOf child) := by
  induction trees generalizing number with
  | nil => simp [addressesOf]
  | cons tree trees inductionHypothesis =>
    have later : ∀ part child, trees[part]? = some child →
        ∀ path, give ((number + 1 + part) :: path) = giveOf child path := by
      intro part child found path
      rw [Nat.add_right_comm]
      exact same (part + 1) child found path
    rw [addressesOf, List.flatMap_append, List.flatMap_map, inductionHypothesis later,
      List.flatMap_cons]
    exact congrArg (· ++ _) (congrArg (List.flatMap · _) (funext (same 0 tree rfl)))

/-- What each node gives at its place, followed by what its parts give below it, is what is given
along the addresses. -/
theorem eq_flatMap_addresses {Place Item : Type} {give here : Place → Tree → List Item}
    {below : Place → Tree → Place}
    (unfolds : ∀ place tree,
      give place tree = here place tree ++ tree.children.flatMap (give (below place tree)))
    (place : Place) (tree : Tree) :
    give place tree = tree.addresses.flatMap fun address =>
      ((tree.at? address).map (here ((tree.around address).foldr
        (fun node place => below place node) place))).getD [] := by
  induction tree using children_induction generalizing place with
  | step tree inductionHypothesis =>
    have inParts : ∀ part child, tree.children[part]? = some child → ∀ path,
        ((tree.at? ((0 + part) :: path)).map (here ((tree.around ((0 + part) :: path)).foldr
          (fun node place => below place node) place))).getD [] =
        ((child.at? path).map (here ((child.around path).foldr
          (fun node place => below place node) (below place tree)))).getD [] := by
      intro part child found path
      rw [Nat.zero_add, at?, around, found, Option.bind_some]
      simp only [List.foldr_append, List.foldr_cons, List.foldr_nil]
    rw [unfolds, addresses_eq, List.flatMap_cons, flatMap_addressesOf inParts]
    refine congrArg (here place tree ++ ·) ?_
    exact List.flatMap_congr fun child member => inductionHypothesis child member _

end MigrationGuard.Python.Tree
