/-
This file lets passes over the functions of one repository overlap. Each function
is recorded by a write of its own, and between two writes of a pass anything may
happen that the lock of the repository permits. The lock is held from before the
first write to behind the last one, so at any time one pass at most is under way,
and the passes that have released the lock end as if they had run one after the
other. A pass is taken apart into steps, which are shown to make up the pass as a
whole when nothing comes in between. One step either makes progress under the
lock, or comes to its end there, or is made without the lock and leaves the
snapshots alone. From this it follows by induction over what happens that passes
take turns. A pass that fails on the way has recorded some first functions, and
alone it would have done the same with a store that fails at that point.
-/

import Mathlib.Logic.Function.Basic
import Mathlib.Logic.Relation
import MigrationGuard.Memory.Open
import MigrationGuard.Proofs.Memory.Snapshots

namespace MigrationGuard

variable {World : Type}

/-! ### The steps of a pass -/

/-- How far a pass has come, with what it still needs for the rest of its way. -/
inductive PassPhase where
  /-- It does not have the lock yet. -/
  | waiting
  /-- It holds the lock and opens the store. -/
  | opening
  /-- It holds the lock and records the rest of its functions. -/
  | recording (rest : List CallNode) (changes : List ChangedFunction)
  /-- It holds the lock and is done with the store. -/
  | releasing (answer : Except MemoryFailure (List ChangedFunction))
  /-- It has released the lock and remembers the texts of its functions. -/
  | remembering (answer : Except MemoryFailure (List ChangedFunction))
  /-- It has ended. -/
  | ended (answer : Except MemoryFailure (List ChangedFunction))

namespace PassPhase

/-- The pass holds the lock, from when it got it to when it releases it. -/
def holdsLock : PassPhase → Bool
  | .opening | .recording .. | .releasing _ => true
  | .waiting | .remembering _ | .ended _ => false

/-- What the pass answers, once it has released the lock. Texts do not matter to the answer. -/
def answer? : PassPhase → Option (Except MemoryFailure (List ChangedFunction))
  | .remembering answer | .ended answer => some answer
  | .waiting | .opening | .recording .. | .releasing _ => none

theorem answer?_of_holdsLock {phase : PassPhase} (holds : phase.holdsLock = true) :
    phase.answer? = none := by
  cases phase <;> first | rfl | exact nomatch holds

end PassPhase

namespace FunctionPass

/-- One step of a pass. The lock is released where the block that holds it is left, with an answer
or with a failure. -/
inductive Step (pass : FunctionPass World) : PassPhase × World → PassPhase × World → Prop where
  /-- The lock cannot be had. -/
  | refused {world later : World} {failure : StoreFailure}
    (refused : pass.memory.lock world = (.error failure, later)) :
    Step pass (.waiting, world) (.ended (.error (.store failure)), later)
  /-- The lock is taken. -/
  | locked {world later : World} (locked : pass.memory.lock world = (.ok (), later)) :
    Step pass (.waiting, world) (.opening, later)
  /-- The store cannot be opened. -/
  | shut {world later : World} {failure : MemoryFailure}
    (shut : pass.memory.look (fun _ => ()) world = (.error failure, later)) :
    Step pass (.opening, world) (.releasing (.error failure), later)
  /-- The store is opened. -/
  | opened {world later : World} (opened : pass.memory.look (fun _ => ()) world = (.ok (), later)) :
    Step pass (.opening, world) (.recording pass.nodes [], later)
  /-- A function cannot be recorded. -/
  | failed {node : CallNode} {rest : List CallNode} {changes : List ChangedFunction}
    {world later : World} {failure : MemoryFailure}
    (failed : pass.memory.recordFunction node pass.now world = (.error failure, later)) :
    Step pass (.recording (node :: rest) changes, world) (.releasing (.error failure), later)
  /-- A function is recorded. -/
  | recorded {node : CallNode} {rest : List CallNode} {changes : List ChangedFunction}
    {world later : World} {change : Option ChangedFunction}
    (recorded : pass.memory.recordFunction node pass.now world = (.ok change, later)) :
    Step pass (.recording (node :: rest) changes, world)
      (.recording rest (changes ++ change.toList), later)
  /-- All functions are recorded. -/
  | complete {changes : List ChangedFunction} {world : World} :
    Step pass (.recording [] changes, world) (.releasing (.ok changes), world)
  /-- The lock is released. -/
  | released {answer : Except MemoryFailure (List ChangedFunction)} {world : World} :
    Step pass (.releasing answer, world) (.remembering answer, world)
  /-- Texts are remembered as far as that can be done. -/
  | remembered {changes : List ChangedFunction} {world : World} :
    Step pass (.remembering (.ok changes), world) (.ended (.ok changes),
      (pass.memory.remember .functions (pass.nodes.map (functionEntry pass.memory.id)) world).2)
  /-- After a failure there is nothing to remember. -/
  | gaveUp {failure : MemoryFailure} {world : World} :
    Step pass (.remembering (.error failure), world) (.ended (.error failure), world)

/-- What is left of a pass that is done with the store: it remembers texts, unless it failed. -/
def conclude (pass : FunctionPass World) :
    Except MemoryFailure (List ChangedFunction) →
      StateM World (Except MemoryFailure (List ChangedFunction))
  | .error failure => return .error failure
  | .ok changes => do
    pass.memory.remember .functions (pass.nodes.map (functionEntry pass.memory.id))
    return .ok changes

/-- What is left of a pass that records functions, with the changes it has found so far. -/
def recordRest (pass : FunctionPass World) (rest : List CallNode)
    (changes : List ChangedFunction) :
    StateM World (Except MemoryFailure (List ChangedFunction)) := do
  pass.conclude ((← pass.memory.recordEach pass.now rest).map (changes ++ ·))

/-- What is left of a pass in each phase, run without interruption. -/
def finish (pass : FunctionPass World) :
    PassPhase → StateM World (Except MemoryFailure (List ChangedFunction))
  | .waiting => pass.run
  | .opening => do
    match ← pass.memory.look fun _ => () with
    | .error failure => return .error failure
    | .ok () => pass.recordRest pass.nodes []
  | .recording rest changes => pass.recordRest rest changes
  | .releasing answer | .remembering answer => pass.conclude answer
  | .ended answer => return answer

/-- How many steps are left at most, so a pass that is left alone comes to its end. -/
def stepsLeft (pass : FunctionPass World) : PassPhase → Nat
  | .waiting => pass.nodes.length + 5
  | .opening => pass.nodes.length + 4
  | .recording rest _ => rest.length + 3
  | .releasing _ => 2
  | .remembering _ => 1
  | .ended _ => 0

/-- Once it has the lock, a pass opens the store and records its functions. -/
theorem run_of_locked {pass : FunctionPass World} {world later : World}
    (locked : pass.memory.lock world = (.ok (), later)) :
    pass.run world = pass.finish .opening later := by
  unfold run finish RepositoryMemory.recordFunctions
  rw [bind_apply, locked]
  dsimp only
  rw [bind_apply, bind_apply]
  generalize pass.memory.look (fun _ => ()) later = looked
  obtain ⟨failure | _, between⟩ := looked
  · rfl
  · dsimp only [recordRest]
    rw [bind_apply, bind_apply]
    generalize pass.memory.recordEach pass.now pass.nodes between = recorded
    obtain ⟨failure | changes, left⟩ := recorded <;> rfl

/-- Once a function is recorded, the rest of them is left, and its change is noted. -/
theorem recordRest_of_recorded {pass : FunctionPass World} {node : CallNode}
    {rest : List CallNode} {changes : List ChangedFunction} {world later : World}
    {change : Option ChangedFunction}
    (recorded : pass.memory.recordFunction node pass.now world = (.ok change, later)) :
    pass.recordRest (node :: rest) changes world =
      pass.recordRest rest (changes ++ change.toList) later := by
  unfold recordRest
  rw [bind_apply, bind_apply, RepositoryMemory.recordEach, bind_apply, recorded]
  dsimp only
  rw [bind_apply]
  rcases pass.memory.recordEach pass.now rest later with ⟨failure | others, left⟩
  · rfl
  · simp only [Except.map, pure_apply, List.append_assoc]

/-- A step does a part of what is left, so whatever the pass answers is decided by the rest. -/
theorem finish_of_step {pass : FunctionPass World} {state next : PassPhase × World}
    (step : pass.Step state next) : pass.finish next.1 next.2 = pass.finish state.1 state.2 := by
  cases step with
  | refused refused =>
    dsimp only [finish, run]
    rw [RepositoryMemory.recordFunctions, bind_apply, refused]
  | locked locked => exact (run_of_locked locked).symm
  | shut shut =>
    dsimp only [finish]
    rw [bind_apply, shut]
    rfl
  | opened opened =>
    dsimp only [finish]
    rw [bind_apply, opened]
  | failed failed =>
    dsimp only [finish, recordRest]
    rw [bind_apply, RepositoryMemory.recordEach, bind_apply, failed]
    rfl
  | recorded recorded => exact (recordRest_of_recorded recorded).symm
  | complete =>
    show pass.conclude (.ok _) _ = pass.conclude (.ok (_ ++ [])) _
    rw [List.append_nil]
  | released => rfl
  | remembered => rfl
  | gaveUp => rfl

/-- Unless it has ended, a pass takes a step, which brings its end nearer. -/
theorem exists_step (pass : FunctionPass World) (phase : PassPhase) (world : World) :
    (∃ answer, phase = .ended answer) ∨
      ∃ next, pass.Step (phase, world) next ∧ pass.stepsLeft next.1 < pass.stepsLeft phase := by
  cases phase with
  | waiting =>
    rcases locked : pass.memory.lock world with ⟨failure | _, later⟩
    · exact Or.inr ⟨_, .refused locked, Nat.succ_pos _⟩
    · exact Or.inr ⟨_, .locked locked, Nat.lt_succ_self _⟩
  | opening =>
    rcases opened : pass.memory.look (fun _ => ()) world with ⟨failure | _, later⟩
    · exact Or.inr ⟨_, .shut opened, by simp [stepsLeft]⟩
    · exact Or.inr ⟨_, .opened opened, Nat.lt_succ_self _⟩
  | recording rest changes =>
    cases rest with
    | nil => exact Or.inr ⟨_, .complete, Nat.lt_succ_self _⟩
    | cons node rest =>
      rcases recorded : pass.memory.recordFunction node pass.now world with
        ⟨failure | change, later⟩
      · exact Or.inr ⟨_, .failed recorded, by simp [stepsLeft]⟩
      · exact Or.inr ⟨_, .recorded recorded, by simp [stepsLeft]⟩
  | releasing answer => exact Or.inr ⟨_, .released, Nat.lt_succ_self _⟩
  | remembering answer =>
    cases answer with
    | error failure => exact Or.inr ⟨_, .gaveUp, Nat.succ_pos _⟩
    | ok changes => exact Or.inr ⟨_, .remembered, Nat.succ_pos _⟩
  | ended answer => exact Or.inl ⟨answer, rfl⟩

theorem exists_ended (pass : FunctionPass World) (state : PassPhase × World) :
    ∃ answer later, Relation.ReflTransGen pass.Step state (.ended answer, later) := by
  induction left : pass.stepsLeft state.1 using Nat.strongRecOn generalizing state with
  | _ count inductionHypothesis =>
    obtain ⟨phase, world⟩ := state
    obtain ⟨answer, rfl⟩ | ⟨next, step, nearer⟩ := pass.exists_step phase world
    · exact ⟨answer, world, .refl⟩
    · obtain ⟨answer, later, steps⟩ := inductionHypothesis _ (left ▸ nearer) next rfl
      exact ⟨answer, later, .head step steps⟩

theorem finish_of_steps {pass : FunctionPass World} {state next : PassPhase × World}
    (steps : Relation.ReflTransGen pass.Step state next) :
    pass.finish next.1 next.2 = pass.finish state.1 state.2 := by
  induction steps with
  | refl => rfl
  | tail _ step inductionHypothesis => exact (finish_of_step step).trans inductionHypothesis

/-- The steps of a pass, when nothing comes in between of them, are the pass as a whole. -/
theorem steps_iff_run (pass : FunctionPass World) (world later : World)
    (answer : Except MemoryFailure (List ChangedFunction)) :
    Relation.ReflTransGen pass.Step (.waiting, world) (.ended answer, later) ↔
      pass.run world = (answer, later) := by
  refine ⟨fun steps => (finish_of_steps steps).symm, fun run => ?_⟩
  obtain ⟨other, left, steps⟩ := pass.exists_ended (.waiting, world)
  have ends : pass.run world = (other, left) := (finish_of_steps steps).symm
  obtain ⟨rfl, rfl⟩ := Prod.mk.inj (run.symm.trans ends)
  exact steps

/-! ### One step of one pass -/

/-- What a pass that holds the lock has done to the snapshots that it found. -/
inductive Progress (pass : FunctionPass World) (before : List SignatureRecord) :
    PassPhase → List SignatureRecord → Prop where
  /-- Nothing yet. -/
  | opening : Progress pass before .opening before
  /-- It recorded some first functions. -/
  | recording {done rest : List CallNode} (split : pass.nodes = done ++ rest) :
    Progress pass before (.recording rest (passOver before (done.map pass.record)).1)
      (passOver before (done.map pass.record)).2
  /-- It came to its end. -/
  | releasing {answer : Except MemoryFailure (List ChangedFunction)} {rows : List SignatureRecord}
    (ends : PassEnds before (pass.nodes.map pass.record) answer rows) :
    Progress pass before (.releasing answer) rows

section
variable {pass : FunctionPass World} {before rows : List SignatureRecord}

theorem Progress.holdsLock {phase : PassPhase} (progress : pass.Progress before phase rows) :
    phase.holdsLock = true := by
  cases progress <;> rfl

variable {node : CallNode} {rest : List CallNode} {changes : List ChangedFunction}
  (progress : pass.Progress before (.recording (node :: rest) changes) rows)
include progress

/-- The next function is recorded, and what changed is noted. The split of the functions moves on by
one. -/
theorem Progress.recorded :
    pass.Progress before
      (.recording rest (changes ++ (changeOver? rows (pass.record node)).toList))
      (renewed rows (pass.record node)) := by
  cases progress with
  | @recording done _ split =>
    have onward : pass.Progress before _ _ := .recording (split.trans (List.append_cons done _ _))
    rwa [List.map_append, List.map_singleton, passOver_append_singleton] at onward

/-- The pass ends where the next function is not recorded, with what it recorded before. -/
theorem Progress.fails (failure : StoreFailure) :
    PassEnds before (pass.nodes.map pass.record) (.error (.store failure)) rows := by
  cases progress with
  | @recording done _ split =>
    have early : done.length < (pass.nodes.map pass.record).length := by simp [split]
    have first : (pass.nodes.map pass.record).take done.length = done.map pass.record := by
      rw [← List.map_take, split, List.take_left]
    exact first ▸ .fails done.length (Or.inr early) failure

end

section
variable {pass : FunctionPass World} {store : World → Store} (shares : pass.memory.Shares store)
  {phase next : PassPhase} {world later : World} (step : pass.Step (phase, world) (next, later))
include shares step

/-- A step of a pass that holds the lock is progress, unless it releases the lock. Then the pass has
come to its end. -/
theorem progress_of_step {before : List SignatureRecord}
    (progress : pass.Progress before phase (pass.memory.snapshotsIn store world)) :
    pass.Progress before next (pass.memory.snapshotsIn store later) ∨
      ∃ answer, next = .remembering answer ∧
        PassEnds before (pass.nodes.map pass.record) answer
          (pass.memory.snapshotsIn store later) := by
  generalize found : pass.memory.snapshotsIn store world = rows at progress
  cases step with
  | refused => exact nomatch progress
  | locked => exact nomatch progress
  | shut shut =>
    cases progress with
    | opening =>
      obtain ⟨reason, rfl⟩ := failure_of_mapError (congrArg Prod.fst shut)
      refine Or.inl (.releasing ?_)
      rw [(leaves_snapshots_look shares _).same shut, found]
      exact .fails 0 (Or.inl rfl) reason
  | opened opened =>
    cases progress with
    | opening =>
      refine Or.inl ?_
      rw [(leaves_snapshots_look shares _).same opened, found]
      exact @Progress.recording World pass before [] pass.nodes rfl
  | failed failed =>
    obtain ⟨told, -⟩ | ⟨reason, told, same⟩ := recordFunction_cases shares _ pass.now world
    · rw [failed] at told
      exact nomatch told
    · rw [failed] at told same
      obtain rfl := Except.error.inj told
      exact Or.inl (.releasing (same.trans found ▸ progress.fails reason))
  | recorded recorded =>
    obtain ⟨told, renews⟩ | ⟨reason, told, -⟩ := recordFunction_cases shares _ pass.now world
    · rw [recorded] at told renews
      obtain rfl := Except.ok.inj told
      rw [renews, found]
      exact Or.inl progress.recorded
    · rw [recorded] at told
      exact nomatch told
  | complete =>
    cases progress with
    | recording split =>
      obtain rfl := split.trans (List.append_nil _)
      exact Or.inl (found ▸ .releasing .succeeds)
  | released =>
    cases progress with
    | releasing ends => exact Or.inr ⟨_, rfl, found ▸ ends⟩
  | remembered => exact nomatch progress
  | gaveUp => exact nomatch progress

/-- A step of a pass that does not hold the lock leaves the snapshots alone, and what it has
answered. A pass that does not get the lock fails. -/
theorem idle_of_step (idle : phase.holdsLock = false) (unlocked : next ≠ .opening) :
    pass.memory.snapshotsIn store later = pass.memory.snapshotsIn store world ∧
      (∀ answer, phase.answer? = some answer → next.answer? = some answer) ∧
      (phase.answer? = none → ∃ failure, next = .ended (.error (.store failure))) := by
  cases step with
  | refused refused => exact ⟨(leaves_snapshots_lock shares).same refused, nofun, fun _ => ⟨_, rfl⟩⟩
  | locked => exact absurd rfl unlocked
  | remembered => exact ⟨leaves_snapshots_remember shares _ _ _, fun _ told => told, nofun⟩
  | gaveUp => exact ⟨rfl, fun _ told => told, nofun⟩
  | shut => exact nomatch idle
  | opened => exact nomatch idle
  | failed => exact nomatch idle
  | recorded => exact nomatch idle
  | complete => exact nomatch idle
  | released => exact nomatch idle

end

end FunctionPass

/-! ### Passes that overlap -/

/-- A pass with a memory that was opened for a workspace, so its lock is a file there. -/
structure OpenedPass (World : Type) extends FunctionPass World where
  /-- The files. -/
  files : FileAccess (StateM World)
  /-- The workspace. -/
  root : String
  /-- The lock of the repository is taken in the workspace. -/
  lock_eq : memory.lock = acquireLock files (WorkspacePlaces.of root).locks memory.id

namespace OpenedPass

/-- The pass with the memory that is opened as the settings of a workspace describe it. -/
def ofWorkspace (files : FileAccess (StateM World)) (root : String) (settings : MemorySettings)
    (ask : String → String → StateM World (Option String)) (nodes : List CallNode) (now : Int)
    (world : World) : OpenedPass World where
  memory := (RepositoryMemory.ofWorkspace files root settings ask world).1
  nodes
  now
  files
  root
  lock_eq := rfl

/-- The file that the pass locks. Passes on one repository in one workspace lock one file. -/
def lockFile (pass : OpenedPass World) : String :=
  lockPath (WorkspacePlaces.of pass.root).locks pass.memory.id

end OpenedPass

/-- Passes overlap: what has happened since a first world, with the phases of the passes and the
order in which they got the lock. A path leads to a file, which one pass can lock at a time. In
between all may happen that leaves what is seen of the snapshots as it is. -/
inductive Overlap {Index File : Type} [DecidableEq Index] (passes : Index → OpenedPass World)
    (fileAt : String → File) (seen : World → List SignatureRecord) (start : World) :
    World → (Index → PassPhase) → List Index → Prop where
  /-- All passes wait at first. -/
  | begins : Overlap passes fileAt seen start start (fun _ => .waiting) []
  /-- Something else happens. -/
  | elsewhere {world later : World} {phases : Index → PassPhase} {order : List Index}
    (overlap : Overlap passes fileAt seen start world phases order)
    (same : seen later = seen world) : Overlap passes fileAt seen start later phases order
  /-- A pass gets the lock, which no other pass holds. -/
  | locks {world later : World} {phases : Index → PassPhase} {order : List Index}
    (overlap : Overlap passes fileAt seen start world phases order) (index : Index)
    (waits : phases index = .waiting)
    (locked : (passes index).memory.lock world = (.ok (), later))
    (free : ∀ other, (phases other).holdsLock →
      fileAt (passes other).lockFile ≠ fileAt (passes index).lockFile) :
    Overlap passes fileAt seen start later (Function.update phases index .opening)
      (order ++ [index])
  /-- A pass takes any other step. -/
  | goesOn {world later : World} {phases : Index → PassPhase} {order : List Index}
    {next : PassPhase} (overlap : Overlap passes fileAt seen start world phases order)
    (index : Index) (step : (passes index).Step (phases index, world) (next, later))
    (unlocked : next ≠ .opening) :
    Overlap passes fileAt seen start later (Function.update phases index next) order

/-- Passes that released the lock end one after the other in an order, from some snapshots to
others. -/
inductive EndInTurn {Index : Type} (passes : Index → OpenedPass World)
    (phases : Index → PassPhase) (start : List SignatureRecord) :
    List Index → List SignatureRecord → Prop where
  /-- There are none. -/
  | nil : EndInTurn passes phases start [] start
  /-- There is one more. -/
  | snoc {order : List Index} {rows later : List SignatureRecord} {index : Index}
    {answer : Except MemoryFailure (List ChangedFunction)}
    (earlier : EndInTurn passes phases start order rows)
    (told : (phases index).answer? = some answer)
    (ends : PassEnds rows ((passes index).nodes.map (passes index).record) answer later) :
    EndInTurn passes phases start (order ++ [index]) later

/-- All passes that got the lock have released it, or the last one of them holds it. -/
inductive OneAtATime {Index : Type} (passes : Index → OpenedPass World)
    (phases : Index → PassPhase) (start : List SignatureRecord) :
    List Index → List SignatureRecord → Prop where
  /-- No pass holds the lock. -/
  | between {order : List Index} {rows : List SignatureRecord}
    (turns : EndInTurn passes phases start order rows) :
    OneAtATime passes phases start order rows
  /-- One pass holds it. -/
  | within {order : List Index} {rows later : List SignatureRecord} {index : Index}
    (turns : EndInTurn passes phases start order rows)
    (progress : (passes index).Progress rows (phases index) later) :
    OneAtATime passes phases start (order ++ [index]) later

/-- The passes that got the lock did so once and one at a time, and the others did nothing. -/
structure Orderly {Index : Type} (passes : Index → OpenedPass World) (phases : Index → PassPhase)
    (start rows : List SignatureRecord) (order : List Index) : Prop where
  /-- The passes that got the lock. -/
  turns : OneAtATime passes phases start order rows
  /-- They got it once. -/
  distinct : order.Nodup
  /-- The other passes. -/
  outside : ∀ index ∉ order,
    phases index = .waiting ∨ ∃ failure, phases index = .ended (.error (.store failure))

section
variable {Index : Type} {passes : Index → OpenedPass World} {phases : Index → PassPhase}
  {start rows : List SignatureRecord} {order : List Index}

/-- A pass that has no answer is not among those that released the lock. -/
theorem EndInTurn.not_mem (turns : EndInTurn passes phases start order rows) {index : Index}
    (silent : (phases index).answer? = none) : index ∉ order := by
  induction turns with
  | nil => exact List.not_mem_nil
  | @snoc _ _ _ last _ _ told _ inductionHypothesis =>
    rw [List.mem_append, List.mem_singleton, not_or]
    refine ⟨inductionHypothesis, ?_⟩
    rintro rfl
    exact nomatch silent.symm.trans told

/-- Passes that keep their answers end in turn as before, wherever else they have come to. -/
theorem EndInTurn.congr {others : Index → PassPhase}
    (turns : EndInTurn passes phases start order rows)
    (same : ∀ index ∈ order, ∀ answer, (phases index).answer? = some answer →
      (others index).answer? = some answer) :
    EndInTurn passes others start order rows := by
  induction turns with
  | nil => exact .nil
  | snoc _ told ends inductionHypothesis =>
    exact .snoc (inductionHypothesis fun index among =>
      same index (List.mem_append_left _ among))
      (same _ (List.mem_append_right _ List.mem_cons_self) _ told) ends

/-- A pass that got the lock is not waiting, so it does not get it again. -/
theorem OneAtATime.not_waiting (turns : OneAtATime passes phases start order rows) {index : Index}
    (among : index ∈ order) : phases index ≠ .waiting := by
  intro waits
  have silent : (phases index).answer? = none := by rw [waits]; rfl
  cases turns with
  | between turns => exact turns.not_mem silent among
  | within turns progress =>
    obtain before | isLast := List.mem_append.mp among
    · exact turns.not_mem silent before
    · rw [← List.mem_singleton.mp isLast, waits] at progress
      exact nomatch progress

end

/-! ### The order of passes -/

section
variable {Index File : Type} [DecidableEq Index] {passes : Index → OpenedPass World}
  {phases : Index → PassPhase} {start rows : List SignatureRecord} {order : List Index}
  {index : Index}

/-- What a pass does is nothing to the others that have answered: their turns are over. -/
theorem EndInTurn.update (turns : EndInTurn passes phases start order rows) {next : PassPhase}
    (kept : ∀ answer, (phases index).answer? = some answer → next.answer? = some answer) :
    EndInTurn passes (Function.update phases index next) start order rows := by
  refine turns.congr fun other _ answer told => ?_
  by_cases same : other = index
  · subst same
    rw [Function.update_self]
    exact kept answer told
  · rwa [Function.update_of_ne same]

/-- A pass that gets the lock when no pass holds it is the last one in the order. -/
theorem Orderly.locks (orderly : Orderly passes phases start rows order)
    (waits : phases index = .waiting) (free : ∀ other, (phases other).holdsLock = false) :
    Orderly passes (Function.update phases index .opening) start rows (order ++ [index]) := by
  have fresh : index ∉ order := fun among => orderly.turns.not_waiting among waits
  refine ⟨?_, ?_, fun other among => ?_⟩
  · cases orderly.turns with
    | between turns =>
      refine .within (turns.update fun answer told => ?_) ?_
      · rw [waits] at told
        exact nomatch told
      · rw [Function.update_self]
        exact .opening
    | within turns progress =>
      exact absurd progress.holdsLock (ne_true_of_eq_false (free _))
  · exact List.nodup_append.mpr ⟨orderly.distinct, List.nodup_singleton _,
      fun known before last single same => fresh (List.mem_singleton.mp single ▸ same ▸ before)⟩
  · rw [List.mem_append, not_or, List.mem_singleton] at among
    rw [Function.update_of_ne among.2]
    exact orderly.outside other among.1

variable {store : World → Store} (shares : (passes index).memory.Shares store) {next : PassPhase}
  {world later : World} (step : (passes index).Step (phases index, world) (next, later))
include shares step

/-- A step of a pass that does not hold the lock changes nothing about the turns. -/
theorem Orderly.idle (orderly : Orderly passes phases start rows order)
    (idle : (phases index).holdsLock = false) (unlocked : next ≠ .opening) :
    Orderly passes (Function.update phases index next) start rows order := by
  obtain ⟨-, kept, fails⟩ := FunctionPass.idle_of_step shares step idle unlocked
  refine ⟨?_, orderly.distinct, fun other among => ?_⟩
  · cases orderly.turns with
    | between turns => exact .between (turns.update kept)
    | @within _ _ _ holder turns progress =>
      have apart : holder ≠ index := by
        rintro rfl
        exact absurd progress.holdsLock (ne_true_of_eq_false idle)
      refine .within (turns.update kept) ?_
      rwa [Function.update_of_ne apart]
  · by_cases same : other = index
    · subst same
      rw [Function.update_self]
      obtain waits | ⟨failure, ended⟩ := orderly.outside other among
      · exact Or.inr (fails (by rw [waits]; rfl))
      · rw [ended] at step
        exact nomatch step
    · rw [Function.update_of_ne same]
      exact orderly.outside other among

/-- A step of the pass that holds the lock is its progress, and the last turn goes on or ends with
it. -/
theorem Orderly.holder
    (orderly : Orderly passes phases start ((passes index).memory.snapshotsIn store world) order)
    (holds : (phases index).holdsLock = true) :
    Orderly passes (Function.update phases index next) start
      ((passes index).memory.snapshotsIn store later) order := by
  obtain ⟨turns, distinct, outside⟩ := orderly
  have among : index ∈ order := by
    by_contra absent
    obtain waits | ⟨failure, ended⟩ := outside index absent
    · rw [waits] at holds
      exact nomatch holds
    · rw [ended] at holds
      exact nomatch holds
  have silent : (phases index).answer? = none := PassPhase.answer?_of_holdsLock holds
  cases turns with
  | between turns => exact absurd among (turns.not_mem silent)
  | @within _ _ _ holder turns progress =>
    obtain before | isLast := List.mem_append.mp among
    · exact absurd before (turns.not_mem silent)
    obtain rfl := List.mem_singleton.mp isLast
    have turned : EndInTurn passes (Function.update phases index next) start _ _ :=
      turns.update fun answer told => nomatch silent.symm.trans told
    refine ⟨?_, distinct, fun other among => ?_⟩
    · obtain further | ⟨answer, rfl, ends⟩ := FunctionPass.progress_of_step shares step progress
      · refine .within turned ?_
        rwa [Function.update_self]
      · refine .between (turned.snoc ?_ ends)
        rw [Function.update_self]
        rfl
    · have apart : other ≠ index := fun same =>
        among (same ▸ List.mem_append_right _ List.mem_cons_self)
      rw [Function.update_of_ne apart]
      exact outside other among

end

section
variable {Index File : Type} [DecidableEq Index] {passes : Index → OpenedPass World}
  {fileAt : String → File} {store : World → Store} {id : String} {file : File}
  (shares : ∀ index, (passes index).memory.Shares store)
  (same : ∀ index, (passes index).memory.id = id ∧ fileAt (passes index).lockFile = file)
include shares same

/-- Passes on one repository overlap in an orderly way, at every point and not only at the end. -/
theorem Overlap.orderly {start world : World} {phases : Index → PassPhase} {order : List Index}
    (overlap : Overlap passes fileAt (fun world => (store world).snapshots id) start world phases
      order) :
    Orderly passes phases ((store start).snapshots id) ((store world).snapshots id) order := by
  have seen : ∀ index world,
      (passes index).memory.snapshotsIn store world = (store world).snapshots id :=
    fun index world => congrArg (store world).snapshots (same index).1
  induction overlap with
  | begins => exact ⟨.between .nil, List.nodup_nil, fun _ _ => Or.inl rfl⟩
  | elsewhere _ kept inductionHypothesis => exact kept ▸ inductionHypothesis
  | locks _ index waits locked free inductionHypothesis =>
    have kept := (leaves_snapshots_lock (shares index)).same locked
    rw [seen, seen] at kept
    rw [kept]
    refine inductionHypothesis.locks waits fun other => Bool.eq_false_iff.mpr fun holds => ?_
    exact free other holds ((same other).2.trans (same index).2.symm)
  | @goesOn _ _ phases _ _ _ index step unlocked inductionHypothesis =>
    simp only [← seen index] at inductionHypothesis ⊢
    cases holds : (phases index).holdsLock with
    | true => exact inductionHypothesis.holder (shares index) step holds
    | false =>
      rw [(FunctionPass.idle_of_step (shares index) step holds unlocked).1]
      exact inductionHypothesis.idle (shares index) step holds unlocked

end

/-! ### Passes one after the other -/

/-- The pass, alone in a world with a store that lasts for a while. -/
def FunctionPass.alone (pass : FunctionPass World) (failure : StoreFailure) :
    FunctionPass (Nat × Store) :=
  ⟨.lasting pass.memory.id pass.memory.path failure, pass.nodes, pass.now⟩

/-- Runs passes one after the other, each as a whole and with a limit to what its store serves, and
gives their answers and the store. -/
def serially {Index : Type} (passes : Index → FunctionPass World) :
    List (Index × Nat × StoreFailure) → Store →
      List (Except MemoryFailure (List ChangedFunction)) × Store
  | [], store => ([], store)
  | (index, limit, failure) :: runs, store =>
    let ran := ((passes index).alone failure).run (limit, store)
    let others := serially passes runs ran.2.2
    (ran.1 :: others.1, others.2)

section
variable {Index : Type} {passes : Index → OpenedPass World} {phases : Index → PassPhase}
  {order : List Index} {store : Store} {id : String}

theorem serially_append_singleton (passes : Index → FunctionPass World)
    (runs : List (Index × Nat × StoreFailure)) (index : Index) (limit : Nat)
    (failure : StoreFailure) (store : Store) :
    let earlier := serially passes runs store
    let ran := ((passes index).alone failure).run (limit, earlier.2)
    serially passes (runs ++ [(index, limit, failure)]) store =
      (earlier.1 ++ [ran.1], ran.2.2) := by
  induction runs generalizing store with
  | nil => rfl
  | cons run runs inductionHypothesis =>
    simp only [List.cons_append, serially, inductionHypothesis]

/-- Passes that end in turn end as they do one after the other, each as a whole, with stores that
fail where theirs did. -/
theorem EndInTurn.exists_serially {rows : List SignatureRecord}
    (turns : EndInTurn passes phases (store.snapshots id) order rows)
    (same : ∀ index, (passes index).memory.id = id) :
    ∃ runs : List (Index × Nat × StoreFailure), runs.map Prod.fst = order ∧
      let serial := serially (fun index => (passes index).toFunctionPass) runs store
      order.map (fun index => (phases index).answer?) = serial.1.map some ∧
        serial.2.snapshots id = rows := by
  induction turns with
  | nil => exact ⟨[], rfl, rfl, rfl⟩
  | @snoc order _ _ index answer _ told ends inductionHypothesis =>
    obtain ⟨runs, rfl, answers, rfl⟩ := inductionHypothesis
    obtain rfl := (same index).symm
    obtain ⟨limit, failure, ran, left⟩ := RepositoryMemory.exists_recordFunctions_lasting
      (passes index).memory.id (passes index).memory.path (passes index).now _ ends
    refine ⟨runs ++ [(index, limit, failure)], by simp, ?_⟩
    dsimp only
    rw [serially_append_singleton]
    refine ⟨?_, left⟩
    rw [List.map_append, List.map_append, answers, List.map_singleton, List.map_singleton, told]
    exact congrArg (fun answer => _ ++ [some answer]) ran.symm

end

/-- Passes on one repository that overlap, however the lock permits it, are serialisable. What
overlaps are the steps of the passes, which make up the pass as a whole when nothing comes in
between. Where no pass holds the lock, those that got it did so once each. They answer as they do
when they run as a whole one after the other, in the order in which they got the lock and each with
a store that lasts as long as it did for the pass, and they leave the same snapshots. The others got
no lock and did nothing. -/
theorem Overlap.serialisable {Index File : Type} [DecidableEq Index]
    {passes : Index → OpenedPass World} {fileAt : String → File} {store : World → Store}
    {id : String} {file : File} {start world : World} {phases : Index → PassPhase}
    {order : List Index}
    (overlap : Overlap passes fileAt (fun world => (store world).snapshots id) start world phases
      order)
    (shares : ∀ index, (passes index).memory.Shares store)
    (same : ∀ index, (passes index).memory.id = id ∧ fileAt (passes index).lockFile = file)
    (free : ∀ index, (phases index).holdsLock = false) :
    (∀ index world later answer,
      Relation.ReflTransGen (passes index).Step (.waiting, world) (.ended answer, later) ↔
        (passes index).run world = (answer, later)) ∧
    order.Nodup ∧
    (∀ index ∉ order,
      phases index = .waiting ∨ ∃ failure, phases index = .ended (.error (.store failure))) ∧
    ∃ runs : List (Index × Nat × StoreFailure), runs.map Prod.fst = order ∧
      let serial := serially (fun index => (passes index).toFunctionPass) runs (store start)
      order.map (fun index => (phases index).answer?) = serial.1.map some ∧
        (store world).snapshots id = serial.2.snapshots id := by
  obtain ⟨turns, distinct, outside⟩ := overlap.orderly shares same
  refine ⟨fun index => (passes index).steps_iff_run, distinct, outside, ?_⟩
  cases turns with
  | between turns =>
    obtain ⟨runs, inOrder, answers, left⟩ := turns.exists_serially fun index => (same index).1
    exact ⟨runs, inOrder, answers, left.symm⟩
  | within turns progress => exact absurd progress.holdsLock (ne_true_of_eq_false (free _))

/-! ### Two passes of a shop -/

/-- Files that can be made but are never found, so a lock can always be made. -/
def blankFiles : FileAccess (StateM Store) where
  find _ := return .error .notFound
  read _ := return .error .notFound
  write _ _ := return .ok ()
  makeDirectories _ := return .ok ()
  removeDirectory _ := return .ok ()
  removeFile _ := return .ok ()
  resolve path := return .ok path

/-- A pass over one function of a shop, with a memory that was opened. -/
def openedShopPass (function signature : String) (now : Int) : OpenedPass Store where
  memory := { RepositoryMemory.ofStore "shop" with
    lock := acquireLock blankFiles (WorkspacePlaces.of "shop").locks "shop" }
  nodes := [⟨function, function, "", 1, .function, .empty, signature⟩]
  now
  files := blankFiles
  root := "shop"
  lock_eq := rfl

/-- Two passes of the shop over one function. The second one finds another signature. -/
def shopRivals : Bool → OpenedPass Store
  | false => openedShopPass "total" "def total()" 1
  | true => openedShopPass "total" "def total(rate)" 2

theorem shares_shopRivals (second : Bool) :
    (shopRivals second).memory.Shares fun store => store := by
  cases second <;> exact ⟨Database.holds_here, fun _ => rfl, fun _ => Leaves.pure _,
    TextIndex.put_ofDatabase Database.holds_here _⟩

/-- The second pass gets the lock before the first one has ended, and finds what it recorded. Alone
in the shop, its steps are the pass that runs as a whole. -/
theorem shopRivals_serialisable :
    (∀ store later answer,
      Relation.ReflTransGen (shopRivals true).Step (.waiting, store) (.ended answer, later) ↔
        (shopRivals true).run store = (answer, later)) ∧
    ∃ world phases, Overlap shopRivals id (fun store => store.snapshots "shop") .empty world phases
        [false, true] ∧
      (phases true).answer? = some (.ok [⟨"total", "def total()", "def total(rate)"⟩]) ∧
      (∀ index, (phases index).holdsLock = false) ∧
      ∃ runs : List (Bool × Nat × StoreFailure), runs.map Prod.fst = [false, true] ∧
        let serial := serially (fun index => (shopRivals index).toFunctionPass) runs .empty
        [false, true].map (fun index => (phases index).answer?) = serial.1.map some ∧
          world.snapshots "shop" = serial.2.snapshots "shop" := by
  let function : String → CallNode := fun signature =>
    ⟨"total", "total", "", 1, .function, .empty, signature⟩
  let recorded := ((shopRivals false).memory.recordFunction (function "def total()") 1 .empty).2
  have changed :
      ((shopRivals true).memory.recordFunction (function "def total(rate)") 2 recorded).1 =
        .ok (some ⟨"total", "def total()", "def total(rate)"⟩) := by decide +kernel
  have waiting : Overlap shopRivals id (fun store => store.snapshots "shop") .empty .empty _ [] :=
    .begins
  have overlap := waiting.locks false rfl rfl (by decide)
  have overlap := overlap.goesOn false (.opened rfl) (by simp)
  have overlap := overlap.goesOn false (.recorded rfl) (by simp)
  have overlap := overlap.goesOn false .complete (by simp)
  have overlap := overlap.goesOn false .released (by simp)
  have overlap := overlap.locks true rfl rfl (by decide)
  have overlap := overlap.goesOn false .remembered (by simp)
  have overlap := overlap.goesOn true (.opened rfl) (by simp)
  have overlap := overlap.goesOn true (.recorded (Prod.ext changed rfl)) (by simp)
  have overlap := overlap.goesOn true .complete (by simp)
  have overlap := overlap.goesOn true .released (by simp)
  have same : ∀ index, (shopRivals index).memory.id = "shop" ∧
      id (shopRivals index).lockFile = lockPath (WorkspacePlaces.of "shop").locks "shop" := by
    intro index
    cases index <;> exact ⟨rfl, rfl⟩
  obtain ⟨alone, -, -, serial⟩ := overlap.serialisable shares_shopRivals same fun index => by
    cases index <;> rfl
  exact ⟨alone true, _, _, overlap, rfl, fun index => by cases index <;> rfl, serial⟩

end MigrationGuard
