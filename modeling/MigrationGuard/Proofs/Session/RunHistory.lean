/-
This file says which verdicts the gate is told of. Runs may be recorded at times
in any order, by several repositories and with or without a verdict. The gate of a
repository is then told the verdicts on its latest runs, as many as the window
holds. Of runs at one time the one that was recorded last comes first. A run whose
identity is known already is refused, and the gate is told the same as before. At
every point of a history the rows are those that the successful calls asked for,
in the order of the calls, so what the gate is told can be said in terms of the
calls alone. A verdict is stored as a word and read back as what it was, and a run
without one takes its place in the window with none. A window may be larger than
what memory can be asked for at once, and then it counts up to there.
-/

import MigrationGuard.Proofs.Memory.Latest
import MigrationGuard.Proofs.Session.Recording

namespace MigrationGuard

open Data

variable {World : Type}

/-! ### Calls that record runs -/

/-- A call of a memory that records a run at a time. -/
structure RunCall (World : Type) where
  /-- The memory that is called. -/
  memory : RepositoryMemory (StateM World)
  /-- What is recorded. -/
  request : RunRequest
  /-- The time. -/
  now : Int

namespace RunCall

/-- Makes the call and answers with the identity of the run. -/
def perform (call : RunCall World) : StateM World (Except MemoryFailure String) :=
  call.memory.recordRun call.request call.now

/-- The record that the call asks for, with an identity made of repository, session and time. -/
def record (call : RunCall World) : RunRecord :=
  call.memory.runRecord call.request call.now

/-- The world after calls, one after the other, whatever they answer. -/
def performAll (calls : List (RunCall World)) (world : World) : World :=
  calls.foldl (fun world call => (call.perform world).2) world

/-- The calls about a repository, in the order in which they were made. -/
def about (repository : String) (calls : List (RunCall World)) : List (RunCall World) :=
  calls.filter fun call => call.memory.id = repository

end RunCall

/-- Runs are recorded one after the other by memories that share a store, and calls that fail record
nothing. In between all may happen that leaves the runs alone. -/
inductive RunHistory (store : World → Store) : World → List (RunCall World) → Prop where
  /-- There are no runs at first. -/
  | begins {world : World} (none : (store world).runs = []) : RunHistory store world []
  /-- Something else happens. -/
  | passes {world later : World} {calls : List (RunCall World)}
    (history : RunHistory store world calls) (same : (store later).runs = (store world).runs) :
    RunHistory store later calls
  /-- A run is recorded. -/
  | records {world later : World} {calls : List (RunCall World)} {id : String}
    (history : RunHistory store world calls) (call : RunCall World)
    (shares : call.memory.Shares store) (done : call.perform world = (.ok id, later)) :
    RunHistory store later (calls ++ [call])
  /-- A run is refused, or the store fails. -/
  | fails {world later : World} {calls : List (RunCall World)} {failure : MemoryFailure}
    (history : RunHistory store world calls) (call : RunCall World)
    (shares : call.memory.Shares store) (failed : call.perform world = (.error failure, later)) :
    RunHistory store later calls

/-- The gate is told the verdicts on the latest runs that calls about a repository recorded. Memory
cannot be asked for more runs than its limit, so the window counts up to there. -/
def Surroundings.ToldOf (around : Surroundings (StateM World)) (world : World)
    (repository : String) (calls : List (RunCall World)) : Prop :=
  ∃ ordered, LatestFirst RunCall.now (RunCall.about repository calls) ordered ∧ ∀ changes,
    let window := around.settings.risk.historyWindow
    let verdicts := ordered.map fun run => run.1.request.verdict
    let told := (recollect around changes world).1.history
    told = verdicts.take (min window pastRunLimit) ∧
      (window ≤ pastRunLimit ∨ ordered.length ≤ pastRunLimit → told = verdicts.take window)

/-! ### The runs of a store -/

theorem Verdict.read_name (verdict : Verdict) :
    Verdict.read (Named.name verdict) = .ok verdict := by
  cases verdict <;> decide +kernel

/-- The verdict is read from the row as it was given, and where none was given there is none. -/
theorem RunCall.readVerdict?_kept (call : RunCall World) :
    call.record.kept.readVerdict? = call.request.verdict := by
  show (call.request.verdict.map Named.name).bind
    (fun word => (Verdict.read word).toOption) = call.request.verdict
  cases call.request.verdict with
  | none => rfl
  | some verdict =>
    rw [Option.map_some, Option.bind_some, Verdict.read_name]
    rfl

section
variable {store : World → Store} {call : RunCall World} (shares : call.memory.Shares store)
  {world later : World}
include shares

/-- A run that is recorded is one row more, behind all that are there. -/
theorem RunCall.runs_of_done {id : String} (done : call.perform world = (.ok id, later)) :
    (store later).runs = (store world).runs ++ [call.record.kept] := by
  rw [perform, RepositoryMemory.recordRun] at done
  split at done
  · exact absurd (congrArg (fun ends => ends.1.toBool) done) Bool.false_ne_true
  · have accepted := RepositoryMemory.accepted_of_done shares done
    rw [Store.recordRun_eq] at accepted
    split at accepted
    · exact absurd (congrArg Except.toBool accepted) Bool.false_ne_true
    · exact congrArg Store.runs (congrArg Prod.fst (Except.ok.inj accepted)).symm

/-- A run that is not recorded changes nothing, be it refused or not saved. -/
theorem RunCall.store_of_failed {failure : MemoryFailure}
    (failed : call.perform world = (.error failure, later)) : store later = store world := by
  rw [perform, RepositoryMemory.recordRun] at failed
  split at failed
  · exact congrArg store (congrArg Prod.snd failed).symm
  · exact RepositoryMemory.store_of_failed shares failed

end

namespace RunHistory

variable {store : World → Store} {world : World} {calls : List (RunCall World)}

/-- The rows are those that were asked for, in the order of the calls. -/
theorem runs_eq (history : RunHistory store world calls) :
    (store world).runs = calls.map fun call => call.record.kept := by
  induction history with
  | begins none => exact none
  | passes _ same inductionHypothesis => exact same.trans inductionHypothesis
  | records _ call shares done inductionHypothesis =>
    rw [RunCall.runs_of_done shares done, inductionHypothesis, List.map_append, List.map_singleton]
  | fails _ call shares failed inductionHypothesis =>
    rw [RunCall.store_of_failed shares failed, inductionHypothesis]

/-- What a store lists of a repository are its runs, the latest first. -/
theorem exists_runsOf (history : RunHistory store world calls) (repository : String) :
    ∃ ordered, LatestFirst RunCall.now (RunCall.about repository calls) ordered ∧
      (store world).runsOf repository = ordered.map fun run => run.1.record.kept := by
  obtain ⟨ordered, latest, are⟩ :=
    exists_latestFirst RunCall.now (RunCall.about repository calls)
  have own : ((store world).runs.filter fun row => row.repository == repository) =
      (RunCall.about repository calls).map fun call => call.record.kept := by
    rw [history.runs_eq, List.filter_map]
    exact congrArg _ (List.filter_congr fun call _ => beq_eq_decide _ _)
  have sorted := List.map_mergeSort (l := (RunCall.about repository calls).reverse)
    (r := fun left right => decide (right.now ≤ left.now))
    (s := fun left right : RunRecord => right.ranAt ≤ left.ranAt)
    (f := fun call : RunCall World => call.record.kept) fun _ _ _ _ => rfl
  refine ⟨ordered, latest, ?_⟩
  rw [Store.runsOf, own, ← List.map_reverse, ← sorted, ← are, List.map_map]
  rfl

end RunHistory

/-! ### What the gate is told -/

/-- What memory answers is taken as it is, where it answers at all. -/
theorem askMemory_of_done {around : Surroundings (StateM World)} {Answer : Type}
    {usual answer : Answer}
    {ask : SessionMemory (StateM World) → StateM World (Except MemoryFailure Answer)}
    {kept : SessionMemory (StateM World)} (uses : around.memory = some kept) {world : World}
    (done : (ask kept world).1 = .ok answer) : (around.askMemory usual ask world).1 = answer := by
  rw [Surroundings.askMemory, uses]
  exact congrArg (fun outcome => outcome.toOption.getD usual) done

section
variable {around : Surroundings (StateM World)} {memory : RepositoryMemory (StateM World)}
  {store : World → Store} (works : memory.Works store)
  (uses : around.memory = some (.ofRepository memory around.clock))
include works uses

/-- The gate is told what can be read of the verdicts on the runs that the store lists. -/
theorem history_recollect (changes : List PatchChange) (world : World) :
    (recollect around changes world).1.history =
      (((store world).runsOf memory.id).take
        (min around.settings.risk.historyWindow pastRunLimit)).map RunRecord.readVerdict? := by
  -- Memory is asked for warnings first, and that leaves the store alone.
  have asked : store (around.askMemory [] (fun kept => kept.warnings changes) world).2 =
      store world := by
    rw [Surroundings.askMemory, uses]
    exact works.leaves_proactiveWarnings changes world
  rw [recollect, bind_apply, bind_apply, bind_apply, pure_apply]
  dsimp only
  rw [← asked]
  generalize (around.askMemory [] (fun kept => kept.warnings changes) world).2 = between
  have answered := RepositoryMemory.look_of_loaded works.database
    (fun found => (found.runsOf memory.id).take
      (min around.settings.risk.historyWindow pastRunLimit)) (works.loads between)
  exact congrArg (List.map RunRecord.readVerdict?) (askMemory_of_done uses answered)

theorem RunHistory.toldOf {world : World} {calls : List (RunCall World)}
    (history : RunHistory store world calls) : around.ToldOf world memory.id calls := by
  obtain ⟨ordered, latest, listed⟩ := history.exists_runsOf memory.id
  refine ⟨ordered, latest, fun changes => ?_⟩
  intro window verdicts told
  have isTold : told = verdicts.take (min window pastRunLimit) := by
    simp only [told, verdicts, history_recollect works uses, listed, ← List.map_take, List.map_map]
    exact List.map_congr_left fun run _ => run.1.readVerdict?_kept
  refine ⟨isTold, fun few => isTold.trans ?_⟩
  obtain within | fewRuns := few
  · rw [Nat.min_eq_left within]
  · have all : verdicts.length ≤ pastRunLimit := (List.length_map _).trans_le fewRuns
    rw [← List.take_take, List.take_of_length_le all]

end

/-! ### Further calls -/

namespace RunHistory

variable {store : World → Store} {world : World} {calls : List (RunCall World)}
  (history : RunHistory store world calls)
include history

section
variable (call : RunCall World) (works : call.memory.Works store)
  (named : Text.allBlank call.request.session = false)
include works named

/-- A run of a named session is recorded, if no run with its identity was. -/
theorem records_of_free (free : ∀ earlier ∈ calls, earlier.record.id ≠ call.record.id) :
    (call.perform world).1 = .ok call.record.id ∧
      RunHistory store (call.perform world).2 (calls ++ [call]) := by
  have freeRows : ∀ row ∈ (store world).runs, row.id ≠ call.record.id := by
    rw [history.runs_eq]
    intro row among
    obtain ⟨earlier, member, rfl⟩ := List.mem_map.mp among
    exact free earlier member
  obtain ⟨later, done, -⟩ := works.recordRun_of_free call.request call.now world named freeRows
  have performed : call.perform world = (.ok call.record.id, later) := done
  rw [performed]
  exact ⟨rfl, history.records call works.toShares performed⟩

/-- A run with an identity that was recorded is refused, whatever else it says. -/
theorem fails_of_taken (taken : ∃ earlier ∈ calls, earlier.record.id = call.record.id) :
    (call.perform world).1 = .error (.store (.duplicate "pipeline_runs.run_id")) ∧
      RunHistory store (call.perform world).2 calls ∧
      store (call.perform world).2 = store world := by
  have takenRow : ∃ row ∈ (store world).runs, row.id = call.record.id := by
    obtain ⟨earlier, member, same⟩ := taken
    refine ⟨earlier.record.kept, ?_, same⟩
    rw [history.runs_eq]
    exact List.mem_map_of_mem member
  obtain ⟨later, failed, same⟩ :=
    works.recordRun_of_taken call.request call.now world named takenRow
  have performed : call.perform world =
      (.error (.store (.duplicate "pipeline_runs.run_id")), later) :=
    failed
  rw [performed]
  exact ⟨rfl, history.fails call works.toShares performed, same⟩

end

/-- Runs of named sessions with distinct identities are all recorded. -/
theorem performAll {further : List (RunCall World)}
    (works : ∀ call ∈ further, call.memory.Works store)
    (named : ∀ call ∈ further, Text.allBlank call.request.session = false)
    (distinct : ((calls ++ further).map fun call => call.record.id).Nodup) :
    RunHistory store (RunCall.performAll further world) (calls ++ further) := by
  induction further generalizing world calls with
  | nil => exact (List.append_nil calls).symm ▸ history
  | cons call further inductionHypothesis =>
    have free : ∀ earlier ∈ calls, earlier.record.id ≠ call.record.id := by
      intro earlier member
      rw [List.map_append] at distinct
      exact (List.nodup_append.mp distinct).2.2 _ (List.mem_map_of_mem member) _
        (List.mem_map_of_mem List.mem_cons_self)
    rw [List.append_cons] at distinct ⊢
    refine inductionHypothesis (history.records_of_free call (works call List.mem_cons_self)
      (named call List.mem_cons_self) free).2 (fun other among => ?_) (fun other among => ?_) distinct
    · exact works other (List.mem_cons_of_mem call among)
    · exact named other (List.mem_cons_of_mem call among)

end RunHistory

/-- However runs were recorded, the gate judges with the verdicts on the latest runs of its
repository. Further runs of named sessions with new and distinct identities are among them from then
on. A run whose identity is known is refused, and the gate is told the same as before. -/
theorem RunHistory.judged {around : Surroundings (StateM World)}
    {memory : RepositoryMemory (StateM World)} {store : World → Store} (works : memory.Works store)
    (uses : around.memory = some (.ofRepository memory around.clock)) {world : World}
    {calls : List (RunCall World)} (history : RunHistory store world calls) :
    around.ToldOf world memory.id calls ∧
    (∀ (session : Session) run, session.baselineRun = some run →
      let known := (recollect around session.judgedChanges world).1
      ∃ passed computedAt, (passGate around session world).1 = .ok passed ∧
        passed.assessment = some (assessRisk ⟨known.warnings, known.history,
          around.settings.risk.historyWindow, known.knownDriftCount, session.graph,
          session.suite.map TestSuite.coveragePct⟩ computedAt)) ∧
    (∀ further : List (RunCall World), (∀ call ∈ further, call.memory.Works store) →
      (∀ call ∈ further, Text.allBlank call.request.session = false) →
      ((calls ++ further).map fun call => call.record.id).Nodup →
        let later := RunCall.performAll further world
        RunHistory store later (calls ++ further) ∧
          around.ToldOf later memory.id (calls ++ further)) ∧
    ∀ call : RunCall World, call.memory.Works store →
      Text.allBlank call.request.session = false →
      (∃ earlier ∈ calls, earlier.record.id = call.record.id) →
        let ends := call.perform world
        ends.1 = .error (.store (.duplicate "pipeline_runs.run_id")) ∧
          RunHistory store ends.2 calls ∧ ∀ changes,
            (recollect around changes ends.2).1.history =
              (recollect around changes world).1.history := by
  refine ⟨history.toldOf works uses, fun session run taken => ?_,
    fun further allWork named distinct => ?_, fun call callWorks named known => ?_⟩
  · obtain ⟨time, ends⟩ := passGate_of_taken around taken world
    exact ⟨_, _, ends, rfl⟩
  · have longer := history.performAll allWork named distinct
    exact ⟨longer, longer.toldOf works uses⟩
  · obtain ⟨answer, again, same⟩ := history.fails_of_taken call callWorks named known
    refine ⟨answer, again, fun changes => ?_⟩
    rw [history_recollect works uses, history_recollect works uses, same]

/-- Runs of a shop and one of a depot. The last two of the shop are at one time, and one of them has
no verdict. -/
def ledgerRuns : List (RunCall Store) :=
  [⟨.ofStore "shop", ⟨"first", some .safe, none, none, none, []⟩, 3⟩,
    ⟨.ofStore "shop", ⟨"second", some .blocked, none, none, none, []⟩, 5⟩,
    ⟨.ofStore "depot", ⟨"first", some .risky, none, none, none, []⟩, 9⟩,
    ⟨.ofStore "shop", ⟨"third", none, none, none, none, []⟩, 5⟩]

/-- The first run of the shop with another verdict, at the same time as before. -/
def repeatedRun : RunCall Store :=
  ⟨.ofStore "shop", ⟨"first", some .blocked, none, none, none, []⟩, 3⟩

/-- What the runs leave when all of them have been made. -/
def ledgerStore : Store :=
  RunCall.performAll ledgerRuns .empty

theorem ledgerStore_history : RunHistory (fun store => store) ledgerStore ledgerRuns := by
  have begun : RunHistory (fun store => store) Store.empty [] := .begins rfl
  refine begun.performAll (fun call among => ?_) (by decide) (by decide +kernel)
  simp only [ledgerRuns, List.mem_cons, List.not_mem_nil, or_false] at among
  rcases among with rfl | rfl | rfl | rfl <;> exact RepositoryMemory.works_ofStore _

/-- The gate of the shop is told of its own runs, the one recorded last before the other one of its
time, and a run that is repeated is refused. -/
theorem ledgerStore_judged :
    strictSurroundings.ToldOf ledgerStore "shop" ledgerRuns ∧
      (recollect strictSurroundings [] ledgerStore).1.history =
        [none, some .blocked, some .safe] ∧
      (repeatedRun.perform ledgerStore).1 =
        .error (.store (.duplicate "pipeline_runs.run_id")) := by
  have works := RepositoryMemory.works_ofStore "shop"
  have uses : strictSurroundings.memory =
      some (.ofRepository (.ofStore "shop") strictSurroundings.clock) :=
    rfl
  obtain ⟨told, -, -, refused⟩ := RunHistory.judged works uses ledgerStore_history
  refine ⟨told, ?_,
    (refused repeatedRun works (by decide) ⟨ledgerRuns[0], List.mem_cons_self, rfl⟩).1⟩
  -- This is said of any store, so that the rows of this one are not computed.
  have rows : ∀ left : Store, RunHistory (fun store => store) left ledgerRuns →
      left.runs = ledgerRuns.map fun call => call.record.kept := fun _ history => history.runs_eq
  have inOrder : ((ledgerStore.runs.filter fun row => row.repository == "shop").reverse).Pairwise
      fun left right => decide (right.ranAt ≤ left.ranAt) := by
    rw [rows ledgerStore ledgerStore_history]
    decide +kernel
  have listed : ledgerStore.runsOf "shop" =
      (ledgerStore.runs.filter fun row => row.repository == "shop").reverse :=
    List.mergeSort_of_pairwise inOrder
  rw [history_recollect works uses]
  show ((ledgerStore.runsOf "shop").take _).map _ = _
  rw [listed, rows ledgerStore ledgerStore_history]
  decide +kernel

end MigrationGuard
