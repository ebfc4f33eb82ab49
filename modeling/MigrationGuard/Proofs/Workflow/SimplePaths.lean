/-
This file says which paths a depth-first search lists: all that lead from one node
to another by at most so many steps and repeat no node, each once, in the order in
which they are discovered. A search that stops when enough paths are found lists
the first of them. Ways on from a node are listed by recursion over the steps that
are left, with the visited nodes kept apart; they are described by what holds of
each way, and their order by where two of them part. The nodes may be of any type,
so the description serves indices and identities alike. The search itself carries
the paths found so far and a limit, and looks no further when that is reached; it
is shown to give what taking the first rows of the full list would give.
-/

import Mathlib.Data.List.Chain
import Mathlib.Data.List.Nodup
import MigrationGuard.Proofs.Workflow.Digraph

namespace MigrationGuard

/-! ### Ways on -/

section
variable {Node : Type} (next : Node → List Node)

/-- The ways on from a node to the target by at most the given number of steps, without steps to
visited nodes. -/
def waysOn [DecidableEq Node] (target : Node) : Nat → List Node → Node → List (List Node)
  | 0, _, _ => []
  | hops + 1, visited, current =>
    (next current).flatMap fun node =>
      if node = target then [[node]]
      else if node ∈ visited then []
      else (waysOn target hops (node :: visited) node).map (List.cons node)

/-- The ways on that begin with a step to the given node, which may be the target itself. -/
def waysThrough [DecidableEq Node] (target : Node) (hops : Nat) (visited : List Node)
    (node : Node) : List (List Node) :=
  if node = target then [[node]]
  else if node ∈ visited then []
  else (waysOn next target hops (node :: visited) node).map (List.cons node)

theorem waysOn_succ [DecidableEq Node] (target : Node) (hops : Nat) (visited : List Node)
    (current : Node) : waysOn next target (hops + 1) visited current =
      (next current).flatMap (waysThrough next target hops visited) :=
  rfl

/-- The way leads on from a node to the target and repeats no node. -/
structure IsWayOn (target : Node) (hops : Nat) (visited : List Node) (current : Node)
    (way : List Node) : Prop where
  /-- Every node is followed by one of its successors. -/
  steps : (current :: way).IsChain fun source node => node ∈ next source
  /-- The way ends at the target. -/
  arrives : way.getLast? = some target
  /-- The way is not too long. -/
  short : way.length ≤ hops
  /-- No node stands twice on the way. -/
  once : way.Nodup
  /-- No node on the way was visited before. -/
  fresh : ∀ node ∈ way, node ∉ visited

section
variable {next} {target : Node} {hops : Nat} {visited : List Node} {current : Node}

/-- A way on is one step to the target, or a step to another node and a way on from there. -/
theorem isWayOn_cons_iff (unvisited : target ∉ visited) {node : Node} {way : List Node} :
    IsWayOn next target (hops + 1) visited current (node :: way) ↔ node ∈ next current ∧
      (node = target ∧ way = [] ∨
        node ≠ target ∧ node ∉ visited ∧ IsWayOn next target hops (node :: visited) node way) := by
  constructor
  · rintro ⟨steps, arrives, short, once, fresh⟩
    obtain ⟨step, steps⟩ := List.isChain_cons_cons.mp steps
    obtain ⟨notAgain, once⟩ := List.nodup_cons.mp once
    refine ⟨step, ?_⟩
    cases way with
    | nil => exact .inl ⟨Option.some.inj arrives, rfl⟩
    | cons second rest =>
      rw [List.getLast?_cons_cons] at arrives
      refine .inr ⟨fun same => notAgain (same ▸ List.mem_of_getLast? arrives),
        fresh node List.mem_cons_self, steps, arrives, Nat.le_of_succ_le_succ short, once, ?_⟩
      intro other member
      rw [List.mem_cons, not_or]
      exact ⟨fun same => notAgain (same ▸ member), fresh other (List.mem_cons_of_mem _ member)⟩
  · rintro ⟨step, ⟨rfl, rfl⟩ | ⟨-, unseen, isWay⟩⟩
    · refine ⟨(List.isChain_pair).mpr step, rfl, Nat.le_add_left 1 hops,
        List.nodup_singleton _, ?_⟩
      intro other member
      rwa [List.mem_singleton.mp member]
    · obtain ⟨steps, arrives, short, once, fresh⟩ := isWay
      refine ⟨List.isChain_cons_cons.mpr ⟨step, steps⟩, ?_, Nat.succ_le_succ short,
        List.nodup_cons.mpr ⟨fun member => fresh node member List.mem_cons_self, once⟩, ?_⟩
      · cases way with
        | nil => exact nomatch arrives
        | cons second rest => rwa [List.getLast?_cons_cons]
      · intro other member
        rcases List.mem_cons.mp member with rfl | member
        · exact unseen
        · exact fun isVisited => fresh other member (List.mem_cons_of_mem _ isVisited)

variable [DecidableEq Node]

theorem mem_waysThrough_iff {node : Node} {way : List Node} :
    way ∈ waysThrough next target hops visited node ↔
      ∃ rest, way = node :: rest ∧ (node = target ∧ rest = [] ∨
        node ≠ target ∧ node ∉ visited ∧
          rest ∈ waysOn next target hops (node :: visited) node) := by
  unfold waysThrough
  by_cases isTarget : node = target
  · simp [isTarget]
  · by_cases isVisited : node ∈ visited
    · simp [isTarget, isVisited]
    · simp [isTarget, isVisited, eq_comm, and_comm]

theorem mem_waysOn_iff (unvisited : target ∉ visited) {way : List Node} :
    way ∈ waysOn next target hops visited current ↔
      IsWayOn next target hops visited current way := by
  -- The search goes on from nodes other than the target only, so the target stays unvisited.
  induction hops generalizing visited current way with
  | zero =>
    refine ⟨nofun, fun isWay => ?_⟩
    have arrives := isWay.arrives
    rw [List.length_eq_zero_iff.mp (Nat.le_zero.mp isWay.short)] at arrives
    exact nomatch arrives
  | succ hops inductionHypothesis =>
    rw [waysOn_succ, List.mem_flatMap]
    simp only [mem_waysThrough_iff]
    cases way with
    | nil =>
      constructor
      · rintro ⟨_, _, _, same, -⟩
        exact nomatch same
      · exact fun isWay => nomatch isWay.arrives
    | cons node way =>
      rw [isWayOn_cons_iff unvisited]
      constructor
      · rintro ⟨_, step, _, same, found⟩
        obtain ⟨rfl, rfl⟩ := List.cons.inj same
        refine ⟨step, found.imp_right fun ⟨other, unseen, isRest⟩ => ⟨other, unseen, ?_⟩⟩
        refine (inductionHypothesis ?_).mp isRest
        rw [List.mem_cons, not_or]
        exact ⟨Ne.symm other, unvisited⟩
      · rintro ⟨step, found⟩
        refine ⟨node, step, way, rfl, found.imp_right fun ⟨other, unseen, isRest⟩ =>
          ⟨other, unseen, (inductionHypothesis ?_).mpr isRest⟩⟩
        rw [List.mem_cons, not_or]
        exact ⟨Ne.symm other, unvisited⟩

end

/-! ### Order of discovery -/

/-- Where two paths part, the first of them takes the earlier successor. So one path is discovered
before the other. -/
inductive FoundBefore : List Node → List Node → Prop
  /-- The paths part after their first node. -/
  | fork {source first second : Node} {left right : List Node}
    (earlier : [first, second].Sublist (next source)) :
    FoundBefore (source :: first :: left) (source :: second :: right)
  /-- The paths begin with the same step. -/
  | step {source : Node} {left right : List Node} (later : FoundBefore left right) :
    FoundBefore (source :: left) (source :: right)

variable {next}

theorem FoundBefore.ne (distinct : ∀ node, (next node).Nodup) {left right : List Node}
    (found : FoundBefore next left right) : left ≠ right := by
  induction found with
  | fork earlier =>
    intro same
    obtain ⟨rfl, -⟩ := List.cons.inj (List.cons.inj same).2
    have twice := (distinct _).sublist earlier
    exact (List.nodup_cons.mp twice).1 List.mem_cons_self
  | step _ inductionHypothesis => exact fun same => inductionHypothesis (List.cons.inj same).2

theorem pairwise_waysOn [DecidableEq Node] (target : Node) (hops : Nat) (visited : List Node)
    (current : Node) :
    ((waysOn next target hops visited current).map (List.cons current)).Pairwise
      (FoundBefore next) := by
  induction hops generalizing visited current with
  | zero => exact List.Pairwise.nil
  | succ hops inductionHypothesis =>
    rw [waysOn_succ, List.pairwise_map, List.pairwise_flatMap]
    constructor
    · intro node _
      unfold waysThrough
      split
      · exact List.pairwise_singleton _ _
      · split
        · exact List.Pairwise.nil
        · exact (inductionHypothesis (node :: visited) node).imp .step
    · refine List.pairwise_iff_forall_sublist.mpr fun {first second} earlier left isLeft right
        isRight => ?_
      obtain ⟨left, rfl, -⟩ := mem_waysThrough_iff.mp isLeft
      obtain ⟨right, rfl, -⟩ := mem_waysThrough_iff.mp isRight
      exact .fork earlier

/-! ### Simple paths -/

variable (next) in
/-- The paths between two different nodes that repeat no node and have at most the given number of
steps, in order of discovery. -/
def simplePathsBetween [DecidableEq Node] (hops : Nat) (source target : Node) : List (List Node) :=
  if source = target then []
  else (waysOn next target hops [source] source).map (List.cons source)

variable (next) in
/-- The path leads from one node to another by at least one step and repeats no node. -/
structure IsSimplePath (hops : Nat) (source target : Node) (path : List Node) : Prop where
  /-- The path begins at the source. -/
  starts : path.head? = some source
  /-- The path ends at the target. -/
  arrives : path.getLast? = some target
  /-- Every node is followed by one of its successors. -/
  steps : path.IsChain fun source node => node ∈ next source
  /-- No node stands twice on the path. -/
  once : path.Nodup
  /-- The path has a step. -/
  long : 2 ≤ path.length
  /-- The path has not too many steps. -/
  short : path.length ≤ hops + 1

theorem mem_simplePathsBetween_iff [DecidableEq Node] {hops : Nat} {source target : Node}
    {path : List Node} :
    path ∈ simplePathsBetween next hops source target ↔
      IsSimplePath next hops source target path := by
  unfold simplePathsBetween
  by_cases same : source = target
  · rw [if_pos same]
    refine ⟨nofun, fun isPath => ?_⟩
    obtain ⟨starts, arrives, -, once, long, -⟩ := isPath
    match path, starts, arrives, once, long with
    | first :: second :: rest, starts, arrives, once, _ =>
      rw [List.getLast?_cons_cons] at arrives
      rw [List.head?_cons, Option.some.injEq] at starts
      refine absurd (List.mem_of_getLast? arrives) ?_
      rw [← same, ← starts]
      exact (List.nodup_cons.mp once).1
  · rw [if_neg same, List.mem_map]
    have unvisited : target ∉ [source] := fun member => same (List.mem_singleton.mp member).symm
    simp only [mem_waysOn_iff unvisited]
    constructor
    · rintro ⟨way, ⟨steps, arrives, short, once, fresh⟩, rfl⟩
      cases way with
      | nil => exact nomatch arrives
      | cons node rest =>
        refine ⟨rfl, by rwa [List.getLast?_cons_cons], steps, List.nodup_cons.mpr ⟨?_, once⟩,
          Nat.le_add_left 2 _, Nat.succ_le_succ short⟩
        exact fun member => fresh source member (List.mem_singleton_self source)
    · rintro ⟨starts, arrives, steps, once, long, short⟩
      match path, starts, arrives, steps, once, long, short with
      | first :: second :: rest, starts, arrives, steps, once, _, short =>
        rw [List.head?_cons, Option.some.injEq] at starts
        subst starts
        rw [List.getLast?_cons_cons] at arrives
        obtain ⟨notAgain, once⟩ := List.nodup_cons.mp once
        refine ⟨second :: rest, ⟨steps, arrives, Nat.le_of_succ_le_succ short, once, ?_⟩, rfl⟩
        intro node member isSource
        exact notAgain (List.mem_singleton.mp isSource ▸ member)

theorem pairwise_simplePathsBetween [DecidableEq Node] (hops : Nat) (source target : Node) :
    (simplePathsBetween next hops source target).Pairwise (FoundBefore next) := by
  unfold simplePathsBetween
  split
  · exact List.Pairwise.nil
  · exact pairwise_waysOn target hops [source] source

theorem nodup_simplePathsBetween [DecidableEq Node] (distinct : ∀ node, (next node).Nodup)
    (hops : Nat) (source target : Node) : (simplePathsBetween next hops source target).Nodup :=
  (pairwise_simplePathsBetween hops source target).imp fun found => found.ne distinct

end

/-! ### Other names for the nodes -/

section
variable {Node Name : Type} [DecidableEq Node] [DecidableEq Name] {next : Node → List Node}
  {follow : Name → List Name} {name : Node → Name} {inside : Node → Prop}
  (closed : ∀ node, inside node → ∀ other ∈ next node, inside other)
  (named : ∀ node, inside node → follow (name node) = (next node).map name)
  (injective : ∀ node, inside node → ∀ other, inside other → name node = name other → node = other)
include closed named injective

end

/-! ### The search on indices -/

/-- Rows that are collected from items as long as there are fewer than the limit are the first of
all rows. -/
theorem foldl_capped {Item Row : Type} (limit : Nat) (rows : Item → List Row) (items : List Item)
    {found : List Row} (within : found.length ≤ limit) :
    items.foldl (fun found item =>
        if limit ≤ found.length then found
        else found ++ (rows item).take (limit - found.length)) found =
      (found ++ items.flatMap rows).take limit := by
  induction items generalizing found with
  | nil => rw [List.flatMap_nil, List.append_nil, List.take_of_length_le within]; rfl
  | cons item items inductionHypothesis =>
    rw [List.foldl_cons, List.flatMap_cons]
    by_cases full : limit ≤ found.length
    · rw [if_pos full, inductionHypothesis within, List.take_append_of_le_length full,
        List.take_append_of_le_length full]
    · rw [if_neg full, inductionHypothesis]
      · have rest : limit - found.length - ((rows item).take (limit - found.length)).length =
            limit - found.length - (rows item).length := by
          rw [List.length_take]
          omega
        rw [List.append_assoc, List.take_append, List.take_append, List.take_append,
          List.take_append, List.take_take, Nat.min_self, rest]
      · rw [List.length_append, List.length_take]
        omega

/-- Ways on that go through a node stand behind a path as ways on from the node stand behind the
longer path. -/
theorem map_cons_behind {Node : Type} (path : List Node) (node : Node) (ways : List (List Node)) :
    (ways.map (List.cons node)).map (path.reverse ++ ·) =
      ways.map ((node :: path).reverse ++ ·) := by
  rw [List.map_map]
  refine List.map_congr_left fun way _ => ?_
  rw [Function.comp_apply, List.reverse_cons, List.append_assoc, List.singleton_append]

namespace Digraph

variable (graph : Digraph)

/-- A step of the search to a node adds the first ways on through the node. -/
theorem extend_eq_take {target limit hops : Nat} {visited : List Nat} {node : Nat}
    (further : graph.extensions target limit hops (node :: visited) =
      ((waysOn graph.successors target hops (node :: visited) node).map
        ((node :: visited).reverse ++ ·)).take limit)
    {found : List (List Nat)} (more : found.length < limit) :
    (if node = target then found ++ [(node :: visited).reverse]
      else if visited.contains node then found
      else found ++ (graph.extensions target limit hops (node :: visited)).take
        (limit - found.length)) =
      found ++ ((waysThrough graph.successors target hops visited node).map
        (visited.reverse ++ ·)).take (limit - found.length) := by
  unfold waysThrough
  by_cases isTarget : node = target
  · rw [if_pos isTarget, if_pos isTarget, List.map_singleton, List.take_of_length_le,
      List.reverse_cons]
    exact Nat.sub_pos_of_lt more
  rw [if_neg isTarget, if_neg isTarget]
  by_cases isVisited : node ∈ visited
  · rw [if_pos (List.contains_iff_mem.mpr isVisited), if_pos isVisited, List.map_nil,
      List.take_nil, List.append_nil]
  · rw [if_neg (mt List.contains_iff_mem.mp isVisited), if_neg isVisited, further,
      map_cons_behind, List.take_take, Nat.min_eq_left (Nat.sub_le _ _)]

/-- The search with a limit finds the first of all ways on, behind those that were found before. -/
theorem extensions_eq_take (target limit hops : Nat) (current : Nat) (earlier : List Nat) :
    graph.extensions target limit hops (current :: earlier) =
      ((waysOn graph.successors target hops (current :: earlier) current).map
        ((current :: earlier).reverse ++ ·)).take limit := by
  -- The search below a node runs with the whole limit; of what it finds only as much is added as
  -- is missing, so the limit need not change in the induction.
  induction hops generalizing current earlier with
  | zero => rw [extensions, waysOn, List.map_nil, List.take_nil]
  | succ hops inductionHypothesis =>
    have step : graph.extensions target limit (hops + 1) (current :: earlier) =
        (graph.successors current).foldl (fun found node =>
          if limit ≤ found.length then found
          else found ++ ((waysThrough graph.successors target hops (current :: earlier) node).map
            ((current :: earlier).reverse ++ ·)).take (limit - found.length)) [] := by
      rw [extensions]
      refine congrArg (fun collect => (graph.successors current).foldl collect []) ?_
      funext found node
      refine ite_congr rfl (fun _ => rfl) fun notFull => ?_
      exact graph.extend_eq_take (inductionHypothesis node (current :: earlier))
        (Nat.not_le.mp notFull)
    rw [step, foldl_capped limit _ _ (Nat.zero_le _), List.nil_append, waysOn_succ,
      List.map_flatMap]

/-- The search with a limit lists the first simple paths, in the order of their discovery. -/
theorem simplePaths_eq_take (source target hops limit : Nat) :
    graph.simplePaths source target hops limit =
      (simplePathsBetween graph.successors hops source target).take limit := by
  unfold simplePaths simplePathsBetween
  by_cases same : source = target
  · rw [if_pos same, if_pos same, List.take_nil]
  · rw [if_neg same, if_neg same, extensions_eq_take]
    rfl

end Digraph

end MigrationGuard
