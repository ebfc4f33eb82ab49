/-
This file follows the search for simple paths as a loop that goes back and forth
on one path. A frame for each node of the path says how many of its successors
were tried. Every turn of the loop leaves the found paths and those still to be
found together as they are, and brings the loop nearer to its end. So the loop
ends with the first paths of the list of all simple paths in order of discovery,
which is what the recursive search gives. The paths still to be found are computed
from the frames: through each successor that was not tried yet go the ways on that
the recursion would list there. How many turns are left is bounded by a number
that each turn makes smaller, where trying a successor pays in advance for all
turns below it. The parts of the state agree at every turn, so a turn never fails
on a node that is not there.
-/

import MigrationGuard.Proofs.Workflow.Additions
import MigrationGuard.Proofs.Workflow.SimplePaths

namespace MigrationGuard.Digraph

/-! ### The loop -/

/-- A node on the path and the number of its successors that were tried. -/
structure Frame where
  /-- The node. -/
  node : Nat
  /-- The place of the next successor to try. -/
  cursor : Nat

/-- The state of the search, with the path in three forms that agree with each other. -/
structure PathSearch where
  /-- The path that is tried. -/
  path : List Nat
  /-- The set of nodes on the path. -/
  onPath : List Nat
  /-- The frames of the nodes on the path, the last node first. -/
  stack : List Frame
  /-- The paths that are found. -/
  found : List (List Nat)

/-- What a turn of the loop comes to: its end, or a further state. -/
inductive Turn where
  /-- The loop ends with the paths found. -/
  | stop (found : List (List Nat))
  /-- The loop goes on. -/
  | more (search : PathSearch)

/-- A turn of the loop. It fails on a node without a list of successors. -/
def turn (graph : Digraph) (target hops limit : Nat) (search : PathSearch) : Option Turn :=
  match search.stack with
  | [] => some (.stop search.found)
  | ⟨node, cursor⟩ :: below =>
    graph.outgoing[node]?.map fun successors =>
      match successors[cursor]? with
      | none =>
        .more ⟨search.path.dropLast, search.onPath.filter (· ≠ node), below, search.found⟩
      | some next =>
        if next = target then
          if limit ≤ (search.found ++ [search.path ++ [next]]).length then
            .stop (search.found ++ [search.path ++ [next]])
          else
            .more ⟨search.path, search.onPath, ⟨node, cursor + 1⟩ :: below,
              search.found ++ [search.path ++ [next]]⟩
        else if ¬ search.onPath.contains next ∧ search.path.length < hops then
          .more ⟨search.path ++ [next], next :: search.onPath,
            ⟨next, 0⟩ :: ⟨node, cursor + 1⟩ :: below, search.found⟩
        else .more ⟨search.path, search.onPath, ⟨node, cursor + 1⟩ :: below, search.found⟩

/-- The loop goes on from a state and ends with the paths found, after however many turns. -/
inductive Ends (graph : Digraph) (target hops limit : Nat) :
    PathSearch → List (List Nat) → Prop
  /-- The loop ends with this turn. -/
  | stop {search : PathSearch} {found : List (List Nat)}
      (last : graph.turn target hops limit search = some (.stop found)) :
      Ends graph target hops limit search found
  /-- The loop ends later. -/
  | more {search later : PathSearch} {found : List (List Nat)}
      (goes : graph.turn target hops limit search = some (.more later))
      (rest : Ends graph target hops limit later found) : Ends graph target hops limit search found

/-- The search ends with the paths found. Without a hop, a path to find or two different nodes, no
path is tried. -/
def FindsPaths (graph : Digraph) (source target hops limit : Nat) (found : List (List Nat)) :
    Prop :=
  if source = target ∨ hops = 0 ∨ limit = 0 then found = []
  else graph.Ends target hops limit ⟨[source], [source], [⟨source, 0⟩], []⟩ found

/-- The loop ends in one way only, so it is determined by the state from which it goes on. -/
theorem Ends.unique {graph : Digraph} {target hops limit : Nat} {search : PathSearch}
    {found other : List (List Nat)} (ends : graph.Ends target hops limit search found)
    (again : graph.Ends target hops limit search other) : other = found := by
  induction ends with
  | stop last =>
    cases again with
    | stop alsoLast => exact Turn.stop.inj (Option.some.inj (alsoLast.symm.trans last))
    | more goes _ => exact nomatch last.symm.trans goes
  | more goes _ inductionHypothesis =>
    cases again with
    | stop last => exact nomatch last.symm.trans goes
    | more alsoGoes rest =>
      obtain rfl := Turn.more.inj (Option.some.inj (alsoGoes.symm.trans goes))
      exact inductionHypothesis rest

/-! ### Paths still to be found -/

section
variable (graph : Digraph) (target hops : Nat)

/-- The paths through a successor of the first of some nodes, which form a path backwards. -/
def pathsThrough (nodes : List Nat) (next : Nat) : List (List Nat) :=
  (waysThrough graph.successors target (hops - nodes.length) nodes next).map (nodes.reverse ++ ·)

/-- The paths that are still to be found, in order of discovery, those through the last node of the
path first. -/
def remaining : List Frame → List (List Nat)
  | [] => []
  | frame :: below =>
    ((graph.successors frame.node).drop frame.cursor).flatMap
      (graph.pathsThrough target hops ((frame :: below).map Frame.node)) ++ remaining below

variable {graph} {target hops} {node cursor : Nat} {below : List Frame}

theorem remaining_of_spent (spent : (graph.successors node)[cursor]? = none) :
    graph.remaining target hops (⟨node, cursor⟩ :: below) = graph.remaining target hops below := by
  rw [remaining, List.drop_eq_nil_of_le (List.getElem?_eq_none_iff.mp spent)]
  rfl

theorem remaining_of_next {next : Nat} (tries : (graph.successors node)[cursor]? = some next) :
    graph.remaining target hops (⟨node, cursor⟩ :: below) =
      graph.pathsThrough target hops (node :: below.map Frame.node) next ++
        graph.remaining target hops (⟨node, cursor + 1⟩ :: below) := by
  obtain ⟨bound, same⟩ := List.getElem?_eq_some_iff.mp tries
  rw [remaining, remaining, List.drop_eq_getElem_cons bound, same, List.flatMap_cons,
    List.append_assoc]
  rfl

variable {nodes : List Nat} {next : Nat}

theorem pathsThrough_target :
    graph.pathsThrough target hops nodes target = [nodes.reverse ++ [target]] := by
  rw [pathsThrough, waysThrough, if_pos rfl]
  rfl

theorem pathsThrough_of_mem (other : next ≠ target) (visited : next ∈ nodes) :
    graph.pathsThrough target hops nodes next = [] := by
  rw [pathsThrough, waysThrough, if_neg other, if_pos visited, List.map_nil]

theorem pathsThrough_of_long (other : next ≠ target) (long : hops ≤ nodes.length) :
    graph.pathsThrough target hops nodes next = [] := by
  rw [pathsThrough, waysThrough, if_neg other, Nat.sub_eq_zero_of_le long, waysOn, List.map_nil,
    ite_self, List.map_nil]

/-- The paths through a node that is not on the path are those through the successors of the
node. -/
theorem pathsThrough_of_short (other : next ≠ target) (fresh : next ∉ nodes)
    (short : nodes.length < hops) :
    graph.pathsThrough target hops nodes next =
      (graph.successors next).flatMap (graph.pathsThrough target hops (next :: nodes)) := by
  obtain ⟨further, enough⟩ : ∃ further, hops - nodes.length = further + 1 :=
    Nat.exists_eq_add_one_of_ne_zero (Nat.sub_ne_zero_of_lt short)
  have fewer : hops - (next :: nodes).length = further := by
    rw [List.length_cons]
    omega
  rw [pathsThrough, waysThrough, if_neg other, if_neg fresh, map_cons_behind, enough, waysOn_succ,
    List.map_flatMap]
  refine List.flatMap_congr fun node _ => ?_
  rw [pathsThrough, fewer]

end

/-! ### Turns still to be made -/

/-- The turns that trying a successor may take, with so many further steps allowed and so many
successors for each node at most. -/
def turnsBelow (degree : Nat) : Nat → Nat
  | 0 => 2
  | hops + 1 => degree * turnsBelow degree hops + 2

/-- The turns that the loop may still take, summed up over the frames. -/
def turnsLeft (graph : Digraph) (degree hops : Nat) : List Frame → Nat
  | [] => 0
  | frame :: below =>
    ((graph.successors frame.node).length - frame.cursor) *
      turnsBelow degree (hops - (frame :: below).length) + 1 + turnsLeft graph degree hops below

section
variable {graph : Digraph} {degree hops node cursor : Nat} {below : List Frame}

theorem two_le_turnsBelow (degree hops : Nat) : 2 ≤ turnsBelow degree hops := by
  cases hops with
  | zero => exact Nat.le_refl 2
  | succ hops => exact Nat.le_add_left 2 _

/-- Trying a successor pays for the turns below it, so a longer stack is no loss. -/
theorem turnsLeft_of_next {next : Nat} (tries : (graph.successors node)[cursor]? = some next) :
    graph.turnsLeft degree hops (⟨node, cursor⟩ :: below) =
      graph.turnsLeft degree hops (⟨node, cursor + 1⟩ :: below) +
        turnsBelow degree (hops - (below.length + 1)) := by
  obtain ⟨bound, -⟩ := List.getElem?_eq_some_iff.mp tries
  obtain ⟨others, untried⟩ : ∃ others, (graph.successors node).length - cursor = others + 1 :=
    Nat.exists_eq_add_one_of_ne_zero (Nat.sub_ne_zero_of_lt bound)
  have fewer : (graph.successors node).length - (cursor + 1) = others := by omega
  simp only [turnsLeft, List.length_cons, untried, fewer, Nat.succ_mul]
  omega

theorem turnsLeft_advance_lt {next : Nat}
    (tries : (graph.successors node)[cursor]? = some next) :
    graph.turnsLeft degree hops (⟨node, cursor + 1⟩ :: below) <
      graph.turnsLeft degree hops (⟨node, cursor⟩ :: below) := by
  have few := two_le_turnsBelow degree (hops - (below.length + 1))
  rw [turnsLeft_of_next tries]
  omega

theorem turnsLeft_lt_cons (frame : Frame) :
    graph.turnsLeft degree hops below < graph.turnsLeft degree hops (frame :: below) := by
  rw [turnsLeft]
  omega

theorem turnsLeft_push_lt (bounded : ∀ node, (graph.successors node).length ≤ degree) (next : Nat)
    {stack : List Frame} (short : stack.length < hops) :
    graph.turnsLeft degree hops (⟨next, 0⟩ :: stack) <
      graph.turnsLeft degree hops stack + turnsBelow degree (hops - stack.length) := by
  obtain ⟨further, enough⟩ : ∃ further, hops - stack.length = further + 1 :=
    Nat.exists_eq_add_one_of_ne_zero (Nat.sub_ne_zero_of_lt short)
  have fewer : hops - (stack.length + 1) = further := by omega
  have few := Nat.mul_le_mul_right (turnsBelow degree further) (bounded next)
  simp only [turnsLeft, List.length_cons, Nat.sub_zero, fewer, enough, turnsBelow]
  omega

end

/-! ### What every turn keeps -/

/-- The parts of the search agree, the path is not too long, and more paths are looked for. -/
structure Sound (graph : Digraph) (target hops limit : Nat) (search : PathSearch) : Prop where
  /-- The frames are those of the path. -/
  path : search.path = (search.stack.map Frame.node).reverse
  /-- The set holds the nodes of the path. -/
  onPath : ∀ node, node ∈ search.onPath ↔ node ∈ search.stack.map Frame.node
  /-- No node stands twice on the path. -/
  once : (search.stack.map Frame.node).Nodup
  /-- The path runs along nodes of the graph. -/
  inside : ∀ frame ∈ search.stack, frame.node < graph.keys.length
  /-- The path has room for a last step to the target. -/
  short : search.stack.length ≤ hops
  /-- More paths may be found. -/
  more : search.found.length < limit

namespace Sound

section
variable {graph : Digraph} {target hops limit node cursor : Nat} {path onPath : List Nat}
  {below : List Frame} {found : List (List Nat)}
  (sound : graph.Sound target hops limit ⟨path, onPath, ⟨node, cursor⟩ :: below, found⟩)
include sound

theorem path_eq : path = (node :: below.map Frame.node).reverse :=
  sound.path

theorem length_eq : path.length = below.length + 1 := by
  rw [sound.path_eq, List.length_reverse, List.length_cons, List.length_map]

theorem back :
    graph.Sound target hops limit ⟨path.dropLast, onPath.filter (· ≠ node), below, found⟩ where
  path := by
    refine (congrArg List.dropLast sound.path).trans ?_
    rw [List.map_cons, List.reverse_cons, List.dropLast_concat]
  onPath other := by
    have fresh := (List.nodup_cons.mp sound.once).1
    rw [List.mem_filter, decide_eq_true_iff, sound.onPath, List.map_cons, List.mem_cons]
    constructor
    · exact fun ⟨among, different⟩ => among.resolve_left different
    · exact fun among => ⟨.inr among, fun same => fresh (same ▸ among)⟩
  once := (List.nodup_cons.mp sound.once).2
  inside frame member := sound.inside frame (List.mem_cons_of_mem _ member)
  short := Nat.le_of_succ_le sound.short
  more := sound.more

/-- The search goes on behind a successor, with the paths found so far. -/
theorem advance {others : List (List Nat)} (more : others.length < limit) :
    graph.Sound target hops limit ⟨path, onPath, ⟨node, cursor + 1⟩ :: below, others⟩ where
  path := sound.path
  onPath := sound.onPath
  once := sound.once
  inside frame member := by
    rcases List.mem_cons.mp member with rfl | member
    · exact sound.inside ⟨node, cursor⟩ List.mem_cons_self
    · exact sound.inside frame (List.mem_cons_of_mem _ member)
  short := sound.short
  more := more

theorem push {next : Nat} (bound : next < graph.keys.length) (fresh : next ∉ onPath)
    (short : path.length < hops) :
    graph.Sound target hops limit ⟨path ++ [next], next :: onPath,
      ⟨next, 0⟩ :: ⟨node, cursor⟩ :: below, found⟩ where
  path := (congrArg (· ++ [next]) sound.path).trans List.reverse_cons.symm
  onPath other := by
    rw [List.mem_cons, List.map_cons, List.mem_cons]
    exact or_congr_right (sound.onPath other)
  once := List.nodup_cons.mpr ⟨mt (sound.onPath next).mpr fresh, sound.once⟩
  inside frame member := by
    rcases List.mem_cons.mp member with rfl | member
    · exact bound
    · exact sound.inside frame member
  short := Nat.succ_le_of_lt (sound.length_eq.symm.trans_lt short)
  more := sound.more

end

end Sound

/-- What a turn comes to keeps the paths found and to be found: it ends the loop with the first of
them, or the loop goes on with the same paths and fewer turns to make. -/
inductive Keeps (graph : Digraph) (target hops limit degree : Nat) (search : PathSearch) :
    Turn → Prop
  /-- The loop ends. -/
  | stop {found : List (List Nat)}
      (first : found = (search.found ++ graph.remaining target hops search.stack).take limit) :
      Keeps graph target hops limit degree search (.stop found)
  /-- The loop goes on. -/
  | more {later : PathSearch} (sound : graph.Sound target hops limit later)
      (same : later.found ++ graph.remaining target hops later.stack =
        search.found ++ graph.remaining target hops search.stack)
      (fewer : graph.turnsLeft degree hops later.stack <
        graph.turnsLeft degree hops search.stack) :
      Keeps graph target hops limit degree search (.more later)

section
variable {graph : Digraph} {target hops limit degree node cursor : Nat} {path onPath : List Nat}
  {below : List Frame} {found : List (List Nat)}
  (sound : graph.Sound target hops limit ⟨path, onPath, ⟨node, cursor⟩ :: below, found⟩)
include sound

theorem Keeps.back (spent : (graph.successors node)[cursor]? = none) :
    graph.Keeps target hops limit degree ⟨path, onPath, ⟨node, cursor⟩ :: below, found⟩
      (.more ⟨path.dropLast, onPath.filter (· ≠ node), below, found⟩) := by
  refine .more sound.back ?_ (turnsLeft_lt_cons _)
  rw [remaining_of_spent spent]

section
variable {next : Nat} (tries : (graph.successors node)[cursor]? = some next)
include tries

theorem remaining_of_target (arrives : next = target) :
    graph.remaining target hops (⟨node, cursor⟩ :: below) =
      [path ++ [next]] ++ graph.remaining target hops (⟨node, cursor + 1⟩ :: below) := by
  rw [remaining_of_next tries, arrives, pathsThrough_target, ← sound.path_eq]

/-- The last path that is looked for ends the loop, although more could be found. -/
theorem Keeps.full (arrives : next = target)
    (full : limit ≤ (found ++ [path ++ [next]]).length) :
    graph.Keeps target hops limit degree ⟨path, onPath, ⟨node, cursor⟩ :: below, found⟩
      (.stop (found ++ [path ++ [next]])) := by
  refine .stop ?_
  have more : found.length < limit := sound.more
  have exactly : (found ++ [path ++ [next]]).length = limit := by
    rw [List.length_append, List.length_singleton] at full ⊢
    omega
  rw [remaining_of_target sound tries arrives, ← List.append_assoc, List.take_left' exactly]

theorem Keeps.arrive (arrives : next = target)
    (notFull : ¬ limit ≤ (found ++ [path ++ [next]]).length) :
    graph.Keeps target hops limit degree ⟨path, onPath, ⟨node, cursor⟩ :: below, found⟩
      (.more ⟨path, onPath, ⟨node, cursor + 1⟩ :: below, found ++ [path ++ [next]]⟩) := by
  refine .more (sound.advance (Nat.not_le.mp notFull)) ?_ (turnsLeft_advance_lt tries)
  rw [remaining_of_target sound tries arrives, List.append_assoc]

theorem Keeps.push (wellFormed : graph.WellFormed)
    (bounded : ∀ node, (graph.successors node).length ≤ degree) (other : next ≠ target)
    (fresh : next ∉ onPath) (short : path.length < hops) :
    graph.Keeps target hops limit degree ⟨path, onPath, ⟨node, cursor⟩ :: below, found⟩
      (.more ⟨path ++ [next], next :: onPath, ⟨next, 0⟩ :: ⟨node, cursor + 1⟩ :: below,
        found⟩) := by
  have bound := wellFormed.lt_of_mem_successors (List.mem_of_getElem? tries)
  have fewFrames : below.length + 1 < hops := sound.length_eq ▸ short
  refine .more ((sound.advance sound.more).push bound fresh short) ?_ ?_
  · have notOn : next ∉ node :: below.map Frame.node := mt (sound.onPath next).mpr fresh
    have fewNodes : (node :: below.map Frame.node).length < hops := by
      rwa [List.length_cons, List.length_map]
    rw [remaining_of_next tries, pathsThrough_of_short other notOn fewNodes]
    rfl
  · rw [turnsLeft_of_next tries]
    exact turnsLeft_push_lt bounded next fewFrames

theorem Keeps.skip (other : next ≠ target) (blocked : ¬ (next ∉ onPath ∧ path.length < hops)) :
    graph.Keeps target hops limit degree ⟨path, onPath, ⟨node, cursor⟩ :: below, found⟩
      (.more ⟨path, onPath, ⟨node, cursor + 1⟩ :: below, found⟩) := by
  refine .more (sound.advance sound.more) ?_ (turnsLeft_advance_lt tries)
  have none : graph.pathsThrough target hops (node :: below.map Frame.node) next = [] := by
    rcases Classical.not_and_iff_not_or_not.mp blocked with visited | long
    · exact pathsThrough_of_mem other ((sound.onPath next).mp (not_not.mp visited))
    · refine pathsThrough_of_long other ?_
      rw [List.length_cons, List.length_map, ← sound.length_eq]
      exact Nat.not_lt.mp long
  rw [remaining_of_next tries, none, List.nil_append]

end

end

section
variable {graph : Digraph} (wellFormed : graph.WellFormed) {target hops limit degree : Nat}
  (bounded : ∀ node, (graph.successors node).length ≤ degree) {search : PathSearch}
  (sound : graph.Sound target hops limit search)
include wellFormed bounded sound

/-- A turn does not fail, and keeps the paths found and to be found. -/
theorem Sound.keeps : ∃ result, graph.turn target hops limit search = some result ∧
    graph.Keeps target hops limit degree search result := by
  obtain ⟨path, onPath, stack, found⟩ := search
  cases stack with
  | nil =>
    refine ⟨_, rfl, .stop ?_⟩
    rw [remaining, List.append_nil, List.take_of_length_le (Nat.le_of_lt sound.more)]
  | cons frame below =>
    obtain ⟨node, cursor⟩ := frame
    have row := wellFormed.outgoing_getElem? (sound.inside ⟨node, cursor⟩ List.mem_cons_self)
    simp only [turn, row, Option.map_some]
    refine ⟨_, rfl, ?_⟩
    rcases tries : (graph.successors node)[cursor]? with _ | next
    · exact .back sound tries
    dsimp only
    by_cases arrives : next = target
    · rw [if_pos arrives]
      by_cases full : limit ≤ (found ++ [path ++ [next]]).length
      · rw [if_pos full]
        exact .full sound tries arrives full
      · rw [if_neg full]
        exact .arrive sound tries arrives full
    · rw [if_neg arrives]
      simp only [List.contains_iff_mem]
      by_cases free : next ∉ onPath ∧ path.length < hops
      · rw [if_pos free]
        exact .push sound tries wellFormed bounded arrives free.1 free.2
      · rw [if_neg free]
        exact .skip sound tries arrives free

/-- The loop ends with the first of the paths found and to be found. -/
theorem Sound.ends : graph.Ends target hops limit search
    ((search.found ++ graph.remaining target hops search.stack).take limit) := by
  induction turns : graph.turnsLeft degree hops search.stack using Nat.strong_induction_on
    generalizing search with
  | _ turns inductionHypothesis =>
    obtain ⟨result, goes, keeps⟩ := sound.keeps wellFormed bounded
    cases keeps with
    | stop first =>
      subst first
      exact .stop goes
    | more later same fewer =>
      rw [← same]
      exact .more goes (inductionHypothesis _ (turns ▸ fewer) later rfl)

end

/-! ### What the loop finds -/

section
variable {graph : Digraph} {source target hops limit : Nat}

theorem sound_start (bound : source < graph.keys.length) (someHops : hops ≠ 0)
    (someLimit : limit ≠ 0) :
    graph.Sound target hops limit ⟨[source], [source], [⟨source, 0⟩], []⟩ where
  path := rfl
  onPath _ := Iff.rfl
  once := List.nodup_singleton source
  inside frame member := by
    rw [List.mem_singleton.mp member]
    exact bound
  short := Nat.one_le_iff_ne_zero.mpr someHops
  more := Nat.pos_of_ne_zero someLimit

theorem remaining_start (different : source ≠ target) (someHops : hops ≠ 0) :
    graph.remaining target hops [⟨source, 0⟩] =
      simplePathsBetween graph.successors hops source target := by
  obtain ⟨further, rfl⟩ := Nat.exists_eq_add_one_of_ne_zero someHops
  rw [simplePathsBetween, if_neg different, waysOn_succ, List.map_flatMap, remaining, remaining,
    List.append_nil]
  rfl

theorem WellFormed.length_successors_le (wellFormed : graph.WellFormed) (node : Nat) :
    (graph.successors node).length ≤ graph.edges.length := by
  rw [wellFormed.successors, List.length_map]
  exact List.length_filter_le _ _

/-- The loop, started at a node of the graph, ends with what the recursive search gives. -/
theorem findsPaths_iff (wellFormed : graph.WellFormed) (issued : graph.Issues source)
    {found : List (List Nat)} :
    graph.FindsPaths source target hops limit found ↔
      found = graph.simplePaths source target hops limit := by
  rw [FindsPaths, simplePaths_eq_take]
  by_cases same : source = target
  · rw [if_pos (.inl same), simplePathsBetween, if_pos same, List.take_nil]
  by_cases noHops : hops = 0
  · rw [if_pos (.inr (.inl noHops)), simplePathsBetween, if_neg same, noHops, waysOn,
      List.map_nil, List.take_nil]
  by_cases noLimit : limit = 0
  · rw [if_pos (.inr (.inr noLimit)), noLimit, List.take_zero]
  have bound := wellFormed.issues_iff.mp issued
  have starts : graph.Sound target hops limit ⟨[source], [source], [⟨source, 0⟩], []⟩ :=
    sound_start bound noHops noLimit
  have ends := starts.ends wellFormed wellFormed.length_successors_le
  rw [remaining_start same noHops, List.nil_append] at ends
  rw [if_neg (by simp only [same, noHops, noLimit, or_self, not_false_iff])]
  constructor
  · exact ends.unique
  · rintro rfl
    exact ends

end

/-- In a graph that additions made, the loop ends from every node of the graph. Between two
different nodes it finds the first of all paths that have at most the given number of steps along
added edges and repeat no node, in order of discovery; where two paths part, the one whose next
edge was added earlier comes first. From a node to itself it finds none. -/
theorem findsPaths_iff_first_simplePaths {additions : List Addition}
    (admitted : empty.AdmitsAll additions) (source target hops limit : Nat) :
    let graph := ofAdditions additions
    let next := fun node => (Addition.targets node additions).eraseDups
    (graph.Issues source → ∀ found, graph.FindsPaths source target hops limit found ↔
        found = graph.simplePaths source target hops limit) ∧
      (source ≠ target → ∃ paths : List (List Nat),
        graph.simplePaths source target hops limit = paths.take limit ∧ paths.Nodup ∧
          (∀ path, path ∈ paths ↔ IsSimplePath next hops source target path) ∧
          paths.Pairwise (FoundBefore next)) ∧
      (source = target → graph.simplePaths source target hops limit = []) := by
  intro graph next
  have tells : graph.Tells additions := tells_ofAdditions admitted
  have successors : graph.successors = next := funext tells.successors
  refine ⟨fun issued found => findsPaths_iff (wellFormed_ofAdditions admitted) issued,
    fun _ => ⟨simplePathsBetween next hops source target, ?_, ?_, ?_, ?_⟩, ?_⟩
  · rw [← successors]
    exact graph.simplePaths_eq_take source target hops limit
  · exact nodup_simplePathsBetween (fun _ => nodup_eraseDups _) hops source target
  · exact fun path => mem_simplePathsBetween_iff
  · exact pairwise_simplePathsBetween hops source target
  · exact fun same => if_pos same

/-- Three nodes, where the first two lead to one another and both to the third. -/
def sampleDetour : List Addition :=
  [.node "a", .node "b", .node "c", .edge 0 1, .edge 1 0, .edge 0 2, .edge 1 2]

theorem admitsAll_sampleDetour : empty.AdmitsAll sampleDetour :=
  ⟨trivial, trivial, trivial, ⟨⟨"a", rfl⟩, "b", rfl⟩, ⟨⟨"b", rfl⟩, "a", rfl⟩,
    ⟨⟨"a", rfl⟩, "c", rfl⟩, ⟨⟨"b", rfl⟩, "c", rfl⟩, trivial⟩

theorem findsPaths_sampleDetour :
    empty.AdmitsAll sampleDetour ∧ (ofAdditions sampleDetour).Issues 0 ∧
      (ofAdditions sampleDetour).FindsPaths 0 2 2 2 [[0, 1, 2], [0, 2]] := by
  have issued : (ofAdditions sampleDetour).Issues 0 := ⟨"a", rfl⟩
  have finds := (findsPaths_iff_first_simplePaths admitsAll_sampleDetour 0 2 2 2).1 issued
  exact ⟨admitsAll_sampleDetour, issued, (finds _).mpr (by decide)⟩

end MigrationGuard.Digraph
