/-
This file follows the calls that record drifts. Each of them writes to the store
once and then embeds a text and puts it into the index, and the calls of several
memories that share a store may overlap in any way. The write decides what a call
counts for: in the order of the writes, the calls that succeed are told that the
drift was seen once, twice and so on, and the store holds one record of it that is
made of all of them. So a call is taken apart into its write and the rest, and the
rest, which may come much later, is shown to leave the drifts alone. A history
lists the calls in the order in which they wrote; that its drifts are gathered
from the calls is kept by each step, and all counts follow from this.
-/

import MigrationGuard.Proofs.Memory.Writes

namespace MigrationGuard

variable {World : Type}

/-! ### Calls and their parts -/

/-- A call that records a drift: the memory, what is recorded and the time. -/
structure DriftCall (World : Type) where
  /-- The memory. -/
  memory : RepositoryMemory (StateM World)
  /-- What is recorded. -/
  request : DriftRequest
  /-- The time. -/
  now : Int

namespace DriftCall

/-- What tells the drift apart: the repository, the function and the description, without blanks
around them. -/
def key (call : DriftCall World) : String × String × String :=
  (call.memory.id, Text.trimmed call.request.function, Text.trimmed call.request.description)

/-- The call as a whole, when nothing comes in between. -/
def run (call : DriftCall World) : StateM World (Except MemoryFailure Int) :=
  call.memory.recordDrift call.request call.now

/-- The function or the description is blank, so the call is rejected before it reaches the store.
-/
def blank (call : DriftCall World) : Bool :=
  Text.allBlank call.request.function || Text.allBlank call.request.description

/-- The record that the call makes of a drift that is new, seen once and at the time of the call. -/
def driftRecord (call : DriftCall World) : DriftRecord :=
  call.memory.driftRecord call.request call.now

/-- The first part of the call: it is rejected, or the drift is written to the store. -/
def record (call : DriftCall World) : StateM World (Except MemoryFailure Int) :=
  if call.blank then
    return .error (.invalidInput "drift requires a function name and description")
  else
    call.memory.write fun store =>
      let next := store.recordDrift call.memory.path call.driftRecord
      .ok (next, next.timesSeen call.driftRecord)

/-- The rest of the call: where the drift is written, its text is remembered. -/
def finish (call : DriftCall World) (recorded : Except MemoryFailure Int) :
    StateM World (Except MemoryFailure Int) := do
  match recorded with
  | .error failure => return .error failure
  | .ok timesSeen =>
    call.memory.remember .drifts [driftEntry call.memory.id call.driftRecord.function
      call.driftRecord.description call.request timesSeen]
    return .ok timesSeen

theorem run_eq (call : DriftCall World) : call.run = call.record >>= call.finish := by
  unfold run RepositoryMemory.recordDrift record blank
  split
  · rfl
  · rfl

/-- The first part decides what the call answers, whatever becomes of the text. -/
theorem answer_finish (call : DriftCall World) (recorded : Except MemoryFailure Int)
    (world : World) :
    (call.finish recorded world).1 = recorded := by
  cases recorded <;> rfl

end DriftCall

/-- Calls that record drifts, in the order in which they write, with their answers. -/
abbrev DriftCalls (World : Type) :=
  List (DriftCall World × Except MemoryFailure Int)

/-- What happens to a store, with the calls that wrote to it so far or were rejected and what each
of them answers. The calls overlap: between the two parts of a call there may be parts of others and
all that leaves the drifts alone. -/
inductive DriftHistory (store : World → Store) : World → DriftCalls World → Prop where
  /-- There are no drifts at first. -/
  | begins {world : World} (none : (store world).drifts = []) : DriftHistory store world []
  /-- Something else happens. -/
  | passes {world later : World} {calls : DriftCalls World}
    (history : DriftHistory store world calls)
    (same : (store later).drifts = (store world).drifts) :
    DriftHistory store later calls
  /-- A call writes to the store or is rejected. -/
  | records {world : World} {calls : DriftCalls World}
    (history : DriftHistory store world calls) (call : DriftCall World)
    (shares : call.memory.Shares store) :
    DriftHistory store (call.record world).2 (calls ++ [(call, (call.record world).1)])
  /-- One of the calls goes on to its end. -/
  | finishes {world : World} {calls : DriftCalls World}
    (history : DriftHistory store world calls) {call : DriftCall World}
    {recorded : Except MemoryFailure Int} (among : (call, recorded) ∈ calls) :
    DriftHistory store (call.finish recorded world).2 calls

/-! ### What the calls tell -/

/-- The calls about one drift that succeeded, with their answers, in the order in which they wrote.
-/
def successes (key : String × String × String) (calls : DriftCalls World) :
    List (DriftCall World × Int) :=
  calls.filterMap fun (call, answer) =>
    if call.key = key then answer.toOption.map fun timesSeen => (call, timesSeen) else none

/-- The record that calls about one drift leave: it was seen first at the time of the first call and
as often as there are calls, and all else is what the last call says. -/
def recordOf? : List (DriftCall World) → Option DriftRecord
  | [] => none
  | first :: rest => some { (rest.getLastD first).driftRecord with
      firstSeen := first.now
      timesSeen := rest.length + 1 }

/-- The calls are counted: for each drift, those that succeeded answer how many there were, and
there is one record, made of them, if there are any. -/
structure Store.Counts (store : Store) (calls : DriftCalls World) : Prop where
  /-- The answers are one, two and so on. -/
  answers : ∀ key, (successes key calls).map Prod.snd =
    (List.range (successes key calls).length).map fun (earlier : Nat) => (earlier : Int) + 1
  /-- There is one record of a drift that was recorded, and none of any other. -/
  records : ∀ key, (store.drifts.filter fun row => row.key = key) =
    (recordOf? ((successes key calls).map Prod.fst)).toList

/-! ### One drift -/

section
variable {key : String × String × String}

theorem successes_append_singleton (calls : DriftCalls World) (call : DriftCall World)
    (answer : Except MemoryFailure Int) :
    successes key (calls ++ [(call, answer)]) = successes key calls ++
      (if call.key = key then answer.toOption.map fun timesSeen => (call, timesSeen)
        else none).toList := by
  rw [successes, List.filterMap_append, List.filterMap_cons, List.filterMap_nil]
  dsimp only
  refine congrArg (successes key calls ++ ·) ?_
  generalize (if call.key = key then answer.toOption.map fun timesSeen => (call, timesSeen)
    else none) = made
  cases made <;> rfl

/-- The calls that succeeded with a drift are about that drift, whatever blanks stood around its
names. -/
theorem key_of_success {calls : DriftCalls World} {call : DriftCall World × Int}
    (success : call ∈ successes key calls) : call.1.key = key := by
  obtain ⟨⟨made, answer⟩, -, answered⟩ := List.mem_filterMap.mp success
  dsimp only at answered
  split at answered
  · rename_i same
    obtain ⟨_, -, rfl⟩ := Option.map_eq_some_iff.mp answered
    exact same
  · exact nomatch answered

/-- Calls about one drift that are taken together leave the record that they make. -/
theorem absorbed_eq_recordOf (calls : List (DriftCall World))
    (alike : ∀ call ∈ calls, call.key = key) :
    Keyed.absorbed? DriftRecord.recur (calls.map fun call => call.driftRecord.once) =
      recordOf? calls := by
  cases calls with
  | nil => rfl
  | cons first rest =>
    refine congrArg some ?_
    induction rest using List.reverseRecOn with
    | nil => rfl
    | append_singleton rest call inductionHypothesis =>
      have before := inductionHypothesis fun other among =>
        alike other (List.mem_append_left [call] among)
      -- The row keeps its repository, function and description, which are those of every call.
      have same : (rest.getLastD first).key = call.key :=
        (alike _ (List.mem_append_left [call] List.getLastD_mem_cons)).trans
          (alike call (List.mem_append_right (first :: rest) List.mem_cons_self)).symm
      obtain ⟨sameRepository, sameFunction, sameDescription⟩ :
          (rest.getLastD first).driftRecord.repository = call.driftRecord.repository ∧
            (rest.getLastD first).driftRecord.function = call.driftRecord.function ∧
            (rest.getLastD first).driftRecord.description = call.driftRecord.description :=
        ⟨congrArg Prod.fst same, congrArg (fun key => key.2.1) same,
          congrArg (fun key => key.2.2) same⟩
      rw [List.map_append, List.foldl_append, before, List.getLastD_concat, List.length_append]
      simp only [List.map_cons, List.map_nil, List.foldl_cons, List.foldl_nil, DriftRecord.recur,
        sameRepository, sameFunction, sameDescription]
      rfl

theorem timesSeen_recordOf (calls : List (DriftCall World)) :
    ((recordOf? calls).map DriftRecord.timesSeen).getD 0 = calls.length := by
  cases calls <;> rfl

end

/-! ### All drifts -/

/-- What a call adds to the drifts, if it succeeds: one record that was seen once. -/
def addition? : DriftCall World × Except MemoryFailure Int → Option DriftRecord
  | (call, .ok _) => some call.driftRecord.once
  | (_, .error _) => none

/-- The drifts of the store are gathered from the calls that succeeded. Each step keeps this. -/
def Store.Gathers (store : Store) (calls : DriftCalls World) : Prop :=
  store.drifts = Keyed.gather DriftRecord.key DriftRecord.recur (calls.filterMap addition?)

theorem withKey_additions (key : String × String × String) (calls : DriftCalls World) :
    Keyed.withKey DriftRecord.key key (calls.filterMap addition?) =
      ((successes key calls).map Prod.fst).map fun call => call.driftRecord.once := by
  unfold Keyed.withKey successes
  rw [List.filter_filterMap, List.map_filterMap, List.map_filterMap]
  refine congrArg (List.filterMap · calls) (funext fun made => ?_)
  obtain ⟨call, failure | timesSeen⟩ := made
  · by_cases same : call.key = key <;> simp [addition?, Except.toOption, same]
  · have sameKey : call.driftRecord.once.key = call.key := rfl
    by_cases same : call.key = key <;>
      simp [addition?, Except.toOption, Option.filter, sameKey, same]

namespace Store.Gathers

variable {store : Store} {calls : DriftCalls World}
  (gathers : store.Gathers calls)
include gathers

theorem find (key : String × String × String) :
    (store.drifts.find? fun row => row.key = key) =
      recordOf? ((successes key calls).map Prod.fst) := by
  rw [gathers, Keyed.find_gather DriftRecord.key_recur, withKey_additions]
  have alike : ∀ call ∈ (successes key calls).map Prod.fst, call.key = key := by
    intro call among
    obtain ⟨success, member, rfl⟩ := List.mem_map.mp among
    exact key_of_success member
  exact absorbed_eq_recordOf _ alike

theorem nodup_keys : (store.drifts.map DriftRecord.key).Nodup :=
  gathers ▸ Keyed.nodup_keys_gather DriftRecord.key_recur _

theorem records (key : String × String × String) :
    (store.drifts.filter fun row => row.key = key) =
      (recordOf? ((successes key calls).map Prod.fst)).toList :=
  (Keyed.withKey_of_nodup gathers.nodup_keys key).trans (congrArg Option.toList (gathers.find key))

/-- The store knows how often a drift was recorded: as often as calls about it succeeded. -/
theorem timesSeen (call : DriftCall World) :
    store.timesSeen call.driftRecord = (successes call.key calls).length := by
  have meant : (sameDrift call.driftRecord) = fun row => decide (row.key = call.key) :=
    funext (sameDrift_eq call.driftRecord)
  rw [Store.timesSeen, meant, gathers.find, timesSeen_recordOf, List.length_map]

theorem recorded (call : DriftCall World) (answer : Int) (path : String) :
    (store.recordDrift path call.driftRecord).Gathers (calls ++ [(call, .ok answer)]) := by
  unfold Store.Gathers
  rw [drifts_recordDrift, gathers, List.filterMap_append, ← Keyed.gather_append_singleton]
  rfl

theorem failed (call : DriftCall World) (failure : MemoryFailure) :
    store.Gathers (calls ++ [(call, .error failure)]) := by
  unfold Store.Gathers
  rw [List.filterMap_append, List.filterMap_cons_none rfl, List.filterMap_nil, List.append_nil]
  exact gathers

end Store.Gathers

/-! ### One call -/

namespace DriftCall

variable {call : DriftCall World} {store : World → Store}

/-- A call writes its drift and is told how often it was seen, or it fails and changes nothing. -/
theorem record_cases (shares : call.memory.Shares store) (world : World) :
    (∃ timesSeen, (call.record world).1 = .ok timesSeen ∧
        store (call.record world).2 =
          (store world).recordDrift call.memory.path call.driftRecord ∧
        timesSeen = (store (call.record world).2).timesSeen call.driftRecord) ∨
      ∃ failure, (call.record world).1 = .error failure ∧
        store (call.record world).2 = store world := by
  unfold record
  split
  · exact Or.inr ⟨_, rfl, rfl⟩
  · rcases outcome : call.memory.write (fun found =>
        let next := found.recordDrift call.memory.path call.driftRecord
        .ok (next, next.timesSeen call.driftRecord)) world with ⟨failure | timesSeen, later⟩
    · exact Or.inr ⟨failure, rfl, RepositoryMemory.store_of_failed shares outcome⟩
    · obtain ⟨becomes, counts⟩ := Prod.mk.inj (Except.ok.inj
        (RepositoryMemory.accepted_of_done shares outcome))
      exact Or.inl ⟨timesSeen, rfl, becomes.symm, becomes ▸ counts.symm⟩

/-- A call that is rejected changes nothing at all, not even what is outside of the store. -/
theorem run_of_blank (blank : call.blank = true) (world : World) :
    call.run world =
      (.error (.invalidInput "drift requires a function name and description"), world) := by
  rw [run_eq, record, if_pos blank]
  rfl

/-- Remembering the text of a drift leaves the drifts alone, whether it succeeds or not. -/
theorem drifts_finish (shares : call.memory.Shares store) (recorded : Except MemoryFailure Int)
    (world : World) : (store (call.finish recorded world).2).drifts = (store world).drifts := by
  have leaves : Leaves (fun world => (store world).drifts) (call.finish recorded) := by
    cases recorded with
    | error failure => exact Leaves.pure _
    | ok timesSeen =>
      exact Leaves.bind (RepositoryMemory.leaves_remember_of_textless shares Store.drifts
        (fun _ _ => rfl) _ _) fun _ => Leaves.pure _
  exact leaves world

end DriftCall

namespace DriftHistory

variable {store : World → Store} {world : World} {calls : DriftCalls World}

theorem shares_of_mem (history : DriftHistory store world calls) {call : DriftCall World}
    {recorded : Except MemoryFailure Int} (among : (call, recorded) ∈ calls) :
    call.memory.Shares store := by
  induction history with
  | begins => exact nomatch among
  | passes _ _ inductionHypothesis => exact inductionHypothesis among
  | records _ other shares inductionHypothesis =>
    obtain before | last := List.mem_append.mp among
    · exact inductionHypothesis before
    · obtain ⟨rfl, -⟩ := Prod.mk.inj (List.mem_singleton.mp last)
      exact shares
  | finishes _ _ inductionHypothesis => exact inductionHypothesis among

/-- A call that is not interrupted continues the history with its answer. -/
theorem call (history : DriftHistory store world calls) (call : DriftCall World)
    (shares : call.memory.Shares store) :
    DriftHistory store (call.run world).2 (calls ++ [(call, (call.run world).1)]) := by
  rw [call.run_eq, bind_apply, call.answer_finish]
  exact (history.records call shares).finishes (List.mem_append_right _ List.mem_cons_self)

theorem gathers (history : DriftHistory store world calls) : (store world).Gathers calls := by
  induction history with
  | begins none => exact none
  | passes _ same inductionHypothesis => exact same.trans inductionHypothesis
  | @records world _ _ call shares inductionHypothesis =>
    obtain ⟨timesSeen, done, becomes, -⟩ | ⟨failure, failed, same⟩ := call.record_cases shares world
    · rw [done, becomes]
      exact inductionHypothesis.recorded call timesSeen _
    · rw [failed, same]
      exact inductionHypothesis.failed call failure
  | finishes history among inductionHypothesis =>
    exact (DriftCall.drifts_finish (history.shares_of_mem among) _ _).trans inductionHypothesis

/-- A call that succeeds is told how many there were about its drift. -/
theorem answers (history : DriftHistory store world calls) (key : String × String × String) :
    (successes key calls).map Prod.snd =
      (List.range (successes key calls).length).map fun (earlier : Nat) => (earlier : Int) + 1 := by
  induction history with
  | begins => rfl
  | passes _ _ inductionHypothesis => exact inductionHypothesis
  | @records world calls history call shares inductionHypothesis =>
    have gathers := (history.records call shares).gathers
    obtain ⟨timesSeen, done, -, counts⟩ | ⟨failure, failed, -⟩ := call.record_cases shares world
    · rw [done] at gathers ⊢
      rw [gathers.timesSeen] at counts
      -- Only the drift of the call has one answer more.
      by_cases same : call.key = key
      · subst same
        have more : successes call.key (calls ++ [(call, .ok timesSeen)]) =
            successes call.key calls ++ [(call, timesSeen)] := by
          rw [successes_append_singleton, if_pos rfl]
          rfl
        rw [more, List.length_append, List.length_singleton] at counts
        rw [more, List.map_append, inductionHypothesis, List.length_append, List.length_singleton,
          List.range_succ, List.map_append, List.map_singleton, List.map_singleton, counts]
        rfl
      · rw [successes_append_singleton, if_neg same, Option.toList_none, List.append_nil]
        exact inductionHypothesis
    · have none : (if call.key = key then
          (Except.error failure : Except MemoryFailure Int).toOption.map fun timesSeen =>
            (call, timesSeen)
          else none) = none :=
        ite_self none
      rw [failed, successes_append_singleton, none, Option.toList_none, List.append_nil]
      exact inductionHypothesis
  | finishes _ _ inductionHypothesis => exact inductionHypothesis

theorem counts (history : DriftHistory store world calls) : (store world).Counts calls :=
  ⟨history.answers, history.gathers.records⟩

/-- What a memory lists are the drifts of its repository, each of them once. -/
theorem knownDrifts (history : DriftHistory store world calls)
    {memory : RepositoryMemory (StateM World)} (shares : memory.Shares store)
    (opens : (memory.database.load world).1.toBool = true) :
    ∃ listed, (memory.knownDrifts world).1 = .ok listed ∧
      (∀ row ∈ listed, row.repository = memory.id) ∧
      ∀ function description,
        (listed.filter fun row => row.key = (memory.id, function, description)) =
          (recordOf? ((successes (memory.id, function, description) calls).map
            Prod.fst)).toList := by
  have sorted : ((store world).driftsOf memory.id).Perm
      ((store world).drifts.filter fun row => row.repository == memory.id) :=
    List.mergeSort_perm _ _
  refine ⟨_, RepositoryMemory.look_of_loaded shares.database _ opens, fun row among => ?_,
    fun function description => ?_⟩
  · exact eq_of_beq (List.mem_filter.mp (sorted.mem_iff.mp among)).2
  have own : ((store world).drifts.filter fun row => row.repository == memory.id).filter
      (fun row => row.key = (memory.id, function, description)) =
      (store world).drifts.filter fun row => row.key = (memory.id, function, description) := by
    rw [List.filter_filter]
    refine List.filter_congr fun row _ => ?_
    by_cases same : row.key = (memory.id, function, description)
    · have repository : row.repository = memory.id := congrArg Prod.fst same
      rw [decide_eq_true same, repository, beq_self_eq_true, Bool.and_self]
    · rw [decide_eq_false same, Bool.false_and]
  have once := sorted.filter fun row => row.key = (memory.id, function, description)
  rw [own, history.gathers.records] at once
  cases made : recordOf? ((successes (memory.id, function, description) calls).map Prod.fst) with
  | none => exact (made ▸ once).eq_nil
  | some record => exact (made ▸ once).eq_singleton

/-- No occurrence of a drift is lost or counted twice, however the calls overlap. The calls that
succeed are told in their order how often their drift was seen, and the store has one record of
it, made of the first and the last of them. A memory lists the drifts of its repository, each of
them once. A call that is rejected changes nothing, and every other one can come next. -/
theorem occurrences (history : DriftHistory store world calls) :
    (store world).Counts calls ∧
      (∀ memory : RepositoryMemory (StateM World), memory.Shares store →
        (memory.database.load world).1.toBool = true →
        ∃ listed, (memory.knownDrifts world).1 = .ok listed ∧
          (∀ row ∈ listed, row.repository = memory.id) ∧
          ∀ function description,
            (listed.filter fun row => row.key = (memory.id, function, description)) =
              (recordOf? ((successes (memory.id, function, description) calls).map
                Prod.fst)).toList) ∧
      (∀ call : DriftCall World, call.blank = true → ∀ before, call.run before =
        (.error (.invalidInput "drift requires a function name and description"), before)) ∧
      ∀ call : DriftCall World, call.memory.Shares store →
        DriftHistory store (call.run world).2 (calls ++ [(call, (call.run world).1)]) :=
  ⟨history.counts, fun _ shares opens => history.knownDrifts shares opens,
    fun _ blank before => DriftCall.run_of_blank blank before,
    fun call shares => history.call call shares⟩

end DriftHistory

/-- A run of a shop records that a function rounds down, with blanks as they may come. -/
def roundsDown (function description : String) (now : Int) : DriftCall Store :=
  ⟨.ofStore "shop", ⟨function, .critical, description, "2", "1"⟩, now⟩

/-- Two runs record the same drift. The second one writes it while the first one still has to
remember its text. -/
theorem roundsDown_occurrences :
    let early := roundsDown "total" " rounds down" 20
    let late := roundsDown " total\n" "rounds down" 10
    let written := (late.record (early.record .empty).2).2
    let later := (early.finish (.ok 1) (late.finish (.ok 2) written).2).2
    later.Counts [(early, .ok 1), (late, .ok 2)] := by
  intro early late written later
  have shares := RepositoryMemory.shares_ofStore "shop"
  have begins : DriftHistory id Store.empty [] := .begins rfl
  have one : (early.record .empty).1 = .ok 1 := by decide +kernel
  have two : (late.record (early.record .empty).2).1 = .ok 2 := by decide +kernel
  have recorded : DriftHistory id written [(early, .ok 1), (late, .ok 2)] :=
    one ▸ two ▸ (begins.records early shares).records late shares
  have finished := recorded.finishes (List.mem_cons_of_mem _ List.mem_cons_self)
  exact (DriftHistory.occurrences (finished.finishes List.mem_cons_self)).1

end MigrationGuard
