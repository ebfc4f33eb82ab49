/-
This file follows passes that record the functions of repositories. A pass reports
the functions that have another fingerprint than in the last record of them,
however long ago that was and whichever passes came in between, and it leaves the
records that were passed last. A function that was never recorded is not reported,
and neither is one that is not in the pass. The proof goes through the functions
of a pass one by one: that the store has the last record of each function is kept
by recording one more, and as the functions of a pass are distinct, what is
recorded on the way makes no difference to what is reported later in the same
pass. So a whole pass can be compared with what was there before it, and a pass
that is repeated finds its own records.
-/

import Mathlib.Data.List.Nodup
import MigrationGuard.Proofs.Memory.Writes

namespace MigrationGuard

variable {World : Type}

/-! ### Passes -/

/-- A pass that records functions: the memory, the functions and the time. -/
structure FunctionPass (World : Type) where
  /-- The memory. -/
  memory : RepositoryMemory (StateM World)
  /-- The functions. -/
  nodes : List CallNode
  /-- The time. -/
  now : Int

namespace FunctionPass

/-- The pass as a whole, with the lock held over all of its functions. -/
def run (pass : FunctionPass World) :
    StateM World (Except MemoryFailure (List ChangedFunction)) :=
  pass.memory.recordFunctions pass.nodes pass.now

/-- The record that the pass makes of a function: its signature and its effects, as one fingerprint.
-/
def record (pass : FunctionPass World) (node : CallNode) : SignatureRecord :=
  .ofNode pass.memory.id node pass.now

end FunctionPass

/-- The records of the functions of passes, in their order. -/
def passedRecords (passes : List (FunctionPass World)) : List SignatureRecord :=
  passes.flatMap fun pass => pass.nodes.map pass.record

/-- The last one of some records that is about a function of a repository, if there is one. -/
def lastRecord? (records : List SignatureRecord) (key : String × String) :
    Option SignatureRecord :=
  (Keyed.withKey SignatureRecord.key key records).getLast?

/-- What is reported of a function after some records: its signatures then and now, if it was
recorded before and its fingerprint is another one than in the last record. -/
def reportOf? (records : List SignatureRecord) (repository : String) (node : CallNode) (now : Int) :
    Option ChangedFunction :=
  let record := SignatureRecord.ofNode repository node now
  (lastRecord? records record.key).bind fun before =>
    if before.snapshotHash = record.snapshotHash then none
    else some ⟨node.id, before.signature, node.signature⟩

/-- What happens to a store, with the passes that succeeded so far and what they report. In between
all may happen that leaves the signatures alone. -/
inductive PassHistory (store : World → Store) :
    World → List (FunctionPass World × List ChangedFunction) → Prop where
  /-- There are no signatures at first. -/
  | begins {world : World} (none : (store world).signatures = []) : PassHistory store world []
  /-- Something else happens. -/
  | continues {world later : World} {passes : List (FunctionPass World × List ChangedFunction)}
    (history : PassHistory store world passes)
    (same : (store later).signatures = (store world).signatures) : PassHistory store later passes
  /-- A pass over distinct functions succeeds. -/
  | records {world later : World} {passes : List (FunctionPass World × List ChangedFunction)}
    {changes : List ChangedFunction} (history : PassHistory store world passes)
    (pass : FunctionPass World) (shares : pass.memory.Shares store)
    (distinct : (pass.nodes.map CallNode.id).Nodup) (done : pass.run world = (.ok changes, later)) :
    PassHistory store later (passes ++ [(pass, changes)])

/-! ### One function -/

/-- Records of one function that are taken together leave the last one. -/
theorem absorbed_eq_getLast {key : String × String} (records : List SignatureRecord)
    (alike : ∀ record ∈ records, record.key = key) :
    Keyed.absorbed? SignatureRecord.renew records = records.getLast? := by
  refine Keyed.absorbed?_eq_getLast? _ fun first among later amongToo => ?_
  have same : first.key = later.key := (alike first among).trans (alike later amongToo).symm
  obtain ⟨sameRepository, sameFunction⟩ := Prod.mk.inj same
  simp only [SignatureRecord.renew, sameRepository, sameFunction]

/-- The signatures of the store are gathered from records, so of each function the last one is
there. -/
def Store.Remembers (store : Store) (records : List SignatureRecord) : Prop :=
  store.signatures = Keyed.gather SignatureRecord.key SignatureRecord.renew records

namespace Store.Remembers

variable {store : Store} {records : List SignatureRecord} (remembers : store.Remembers records)
include remembers

theorem find (key : String × String) :
    (store.signatures.find? fun row => row.key = key) = lastRecord? records key := by
  rw [remembers, Keyed.find_gather SignatureRecord.key_renew]
  exact absorbed_eq_getLast _ fun record among => of_decide_eq_true (List.mem_filter.mp among).2

theorem latest (key : String × String) :
    (store.signatures.filter fun row => row.key = key) = (lastRecord? records key).toList := by
  have distinct : (store.signatures.map SignatureRecord.key).Nodup :=
    remembers ▸ Keyed.nodup_keys_gather SignatureRecord.key_renew _
  exact (Keyed.withKey_of_nodup distinct key).trans (congrArg Option.toList (remembers.find key))

theorem recorded (path : String) (record : SignatureRecord) :
    (store.recordSignature path record).Remembers (records ++ [record]) := by
  unfold Store.Remembers
  rw [signatures_recordSignature, remembers, Keyed.gather_append_singleton]

/-- The record before is the last one of the function, however many came after it about others. -/
theorem previous (record : SignatureRecord) :
    store.previousSignature? record = lastRecord? records record.key := by
  have meant : sameFunction record = fun row => decide (row.key = record.key) :=
    funext (sameFunction_eq record)
  rw [previousSignature?, meant, remembers.find]

end Store.Remembers

/-- The record before is told if its fingerprint is another one, and else nothing is. -/
theorem filter_signatureChanged (previous : Option SignatureRecord) (record : SignatureRecord) :
    (previous.filter fun _ => Store.signatureChanged previous record) =
      previous.bind fun before =>
        if before.snapshotHash = record.snapshotHash then none else some before := by
  cases previous with
  | none => rfl
  | some before =>
    by_cases same : before.snapshotHash = record.snapshotHash <;>
      simp [Store.signatureChanged, Option.filter, same]

/-- A record of another function makes no difference to what is reported. -/
theorem reportOf_append_of_ne {records : List SignatureRecord} {repository : String}
    {node other : CallNode} {now : Int} (apart : node.id ≠ other.id) :
    reportOf? (records ++ [.ofNode repository node now]) repository other now =
      reportOf? records repository other now := by
  have stopped : (SignatureRecord.ofNode repository node now).key ≠
      (SignatureRecord.ofNode repository other now).key :=
    fun same => apart (congrArg Prod.snd same)
  have last : lastRecord? (records ++ [.ofNode repository node now])
      (SignatureRecord.ofNode repository other now).key =
      lastRecord? records (SignatureRecord.ofNode repository other now).key := by
    unfold lastRecord? Keyed.withKey
    rw [List.filter_append, List.filter_cons_of_neg (by simpa using stopped), List.filter_nil,
      List.append_nil]
  exact congrArg (Option.bind · _) last

section
variable {memory : RepositoryMemory (StateM World)} {store : World → Store}
  (shares : memory.Shares store) {records : List SignatureRecord} {world later : World} {now : Int}
include shares

/-- A function that is recorded is the last record of it, and it is reported if it changed. -/
theorem recordFunction_done {node : CallNode} {change : Option ChangedFunction}
    (remembers : (store world).Remembers records)
    (done : memory.recordFunction node now world = (.ok change, later)) :
    (store later).Remembers (records ++ [.ofNode memory.id node now]) ∧
      change = reportOf? records memory.id node now := by
  obtain ⟨becomes, told⟩ := Prod.mk.inj (Except.ok.inj
    (RepositoryMemory.accepted_of_done shares done))
  refine ⟨becomes ▸ remembers.recorded _ _, ?_⟩
  rw [← told, remembers.previous, filter_signatureChanged, Option.map_bind]
  refine congrArg (Option.bind _) (funext fun before => ?_)
  rw [Function.comp_apply]
  split <;> rfl

/-- Functions that are recorded one after the other are reported against the records before all of
them, as they are distinct. -/
theorem recordEach_done {nodes : List CallNode} {changes : List ChangedFunction}
    (remembers : (store world).Remembers records) (distinct : (nodes.map CallNode.id).Nodup)
    (done : memory.recordEach now nodes world = (.ok changes, later)) :
    (store later).Remembers (records ++ nodes.map fun node => .ofNode memory.id node now) ∧
      changes = nodes.filterMap fun node => reportOf? records memory.id node now := by
  induction nodes generalizing records world changes with
  | nil =>
    obtain ⟨ends, rfl⟩ := Prod.mk.inj done
    obtain rfl := Except.ok.inj ends
    exact ⟨(List.append_nil records).symm ▸ remembers, rfl⟩
  | cons node nodes inductionHypothesis =>
    rw [List.map_cons, List.nodup_cons] at distinct
    obtain ⟨change, between, first, done⟩ := done_of_bind (fun _ _ => rfl) done
    obtain ⟨others, last, rest, done⟩ := done_of_bind (fun _ _ => rfl) done
    obtain ⟨ends, rfl⟩ := Prod.mk.inj done
    obtain rfl := Except.ok.inj ends
    obtain ⟨recorded, rfl⟩ := recordFunction_done shares remembers first
    obtain ⟨recordedAll, rfl⟩ := inductionHypothesis recorded distinct.2 rest
    refine ⟨List.append_cons records _ _ ▸ recordedAll, ?_⟩
    -- What the first function changes is not asked for by the others, which have other keys.
    have before : (nodes.filterMap fun other =>
        reportOf? (records ++ [.ofNode memory.id node now]) memory.id other now) =
        nodes.filterMap fun other => reportOf? records memory.id other now :=
      List.filterMap_congr fun other among =>
        reportOf_append_of_ne fun same => distinct.1 (same ▸ List.mem_map_of_mem among)
    rw [before, List.filterMap_cons]
    cases reportOf? records memory.id node now <;> rfl

/-- A pass that succeeds reports what changed since the records before and leaves its own ones. -/
theorem recordFunctions_done {nodes : List CallNode} {changes : List ChangedFunction}
    (remembers : (store world).Remembers records) (distinct : (nodes.map CallNode.id).Nodup)
    (done : memory.recordFunctions nodes now world = (.ok changes, later)) :
    (store later).Remembers (records ++ nodes.map fun node => .ofNode memory.id node now) ∧
      changes = nodes.filterMap fun node => reportOf? records memory.id node now := by
  obtain ⟨_, locked, lock, done⟩ := done_of_bind (fun _ _ => rfl) done
  obtain ⟨_, opened, look, done⟩ := done_of_bind (fun _ _ => rfl) done
  obtain ⟨others, recorded, each, done⟩ := done_of_bind (fun _ _ => rfl) done
  obtain ⟨ends, rfl⟩ := Prod.mk.inj done
  obtain rfl := Except.ok.inj ends
  have unlocked : store locked = store world := by
    have leaves := shares.lock world
    rw [lock] at leaves
    exact leaves
  have unread : store opened = store locked := by
    have leaves := RepositoryMemory.leaves_looking shares.database.load (fun _ => ()) locked
    rw [look] at leaves
    exact leaves
  have found : (store opened).Remembers records := (unread.trans unlocked).symm ▸ remembers
  obtain ⟨remembersAll, changed⟩ := recordEach_done shares found distinct each
  refine ⟨?_, changed⟩
  have leaves := RepositoryMemory.leaves_remember_of_textless shares Store.signatures
    (fun _ _ => rfl) .functions (nodes.map (functionEntry memory.id)) recorded
  exact leaves.trans remembersAll

end

/-! ### All passes -/

namespace PassHistory

variable {store : World → Store} {world : World}
  {passes : List (FunctionPass World × List ChangedFunction)}

theorem passedRecords_append_singleton (passes : List (FunctionPass World))
    (pass : FunctionPass World) :
    passedRecords (passes ++ [pass]) = passedRecords passes ++ pass.nodes.map pass.record := by
  rw [passedRecords, List.flatMap_append, List.flatMap_singleton]
  rfl

theorem remembers (history : PassHistory store world passes) :
    (store world).Remembers (passedRecords (passes.map Prod.fst)) := by
  induction history with
  | begins none => exact none
  | continues _ same inductionHypothesis => exact same.trans inductionHypothesis
  | records _ pass shares distinct done inductionHypothesis =>
    rw [List.map_append, List.map_singleton, passedRecords_append_singleton]
    exact (recordFunctions_done shares inductionHypothesis distinct done).1

theorem distinct_of_mem (history : PassHistory store world passes) {pass : FunctionPass World}
    {changes : List ChangedFunction} (among : (pass, changes) ∈ passes) :
    (pass.nodes.map CallNode.id).Nodup := by
  induction history with
  | begins => exact nomatch among
  | continues _ _ inductionHypothesis => exact inductionHypothesis among
  | records _ _ _ distinct _ inductionHypothesis =>
    obtain before | last := List.mem_append.mp among
    · exact inductionHypothesis before
    · obtain ⟨rfl, -⟩ := Prod.mk.inj (List.mem_singleton.mp last)
      exact distinct

/-- Every pass reports what changed since the passes before it, and nothing of the passes behind it.
-/
theorem reports (history : PassHistory store world passes)
    {before after : List (FunctionPass World × List ChangedFunction)} {pass : FunctionPass World}
    {changes : List ChangedFunction} (split : passes = before ++ (pass, changes) :: after) :
    changes = pass.nodes.filterMap fun node =>
      reportOf? (passedRecords (before.map Prod.fst)) pass.memory.id node pass.now := by
  induction history generalizing after with
  | begins => exact absurd split (by simp)
  | continues _ _ inductionHypothesis => exact inductionHypothesis split
  | records history last shares distinct done inductionHypothesis =>
    -- The pass in question is the last one, or it was there before the last one.
    obtain rfl | ⟨others, other, rfl⟩ := List.eq_nil_or_concat after
    · obtain ⟨rfl, same⟩ := List.append_inj' split rfl
      obtain ⟨rfl, rfl⟩ := Prod.mk.inj (List.singleton_inj.mp same)
      exact (recordFunctions_done shares history.remembers distinct done).2
    · rw [List.concat_eq_append, ← List.cons_append, ← List.append_assoc] at split
      exact inductionHypothesis (List.append_inj_left' split rfl)

/-- After a pass the last record of each of its functions is the one of the pass. -/
theorem lastRecord_of_mem (records : List SignatureRecord) {pass : FunctionPass World}
    (distinct : (pass.nodes.map CallNode.id).Nodup) {node : CallNode} (among : node ∈ pass.nodes) :
    lastRecord? (records ++ pass.nodes.map pass.record) (pass.record node).key =
      some (pass.record node) := by
  have keys : ((pass.nodes.map pass.record).map SignatureRecord.key).Nodup := by
    refine List.Nodup.of_map Prod.snd ?_
    rw [List.map_map, List.map_map]
    exact distinct
  have own : Keyed.withKey SignatureRecord.key (pass.record node).key
      (pass.nodes.map pass.record) = [pass.record node] := by
    rw [Keyed.withKey_of_nodup keys, Keyed.find_of_mem keys (List.mem_map_of_mem among)]
    rfl
  unfold lastRecord?
  rw [Keyed.withKey, List.filter_append, List.getLast?_append]
  exact congrArg (fun found => (List.getLast? found).or _) own

/-- A pass that is repeated has nothing to report, as it finds what it recorded itself. -/
theorem quiet (history : PassHistory store world passes)
    {before after : List (FunctionPass World × List ChangedFunction)}
    {pass repeated : FunctionPass World} {changes again : List ChangedFunction}
    (split : passes = before ++ (pass, changes) :: (repeated, again) :: after)
    (sameMemory : repeated.memory.id = pass.memory.id) (sameNodes : repeated.nodes = pass.nodes) :
    again = [] := by
  have distinct : (pass.nodes.map CallNode.id).Nodup :=
    history.distinct_of_mem (split ▸ List.mem_append_right _ List.mem_cons_self)
  rw [List.append_cons] at split
  rw [history.reports split, List.map_append, List.map_singleton, passedRecords_append_singleton,
    sameMemory, sameNodes]
  refine List.filterMap_eq_nil_iff.mpr fun node among => ?_
  have last := lastRecord_of_mem (passedRecords (before.map Prod.fst)) distinct among
  show (lastRecord? _ (pass.record node).key).bind _ = none
  rw [last, Option.bind_some]
  exact if_pos rfl

/-- Passes that succeed report, in the order of their functions, those that were recorded in an
earlier pass and changed since the last record of them, with the signatures then and now. A pass
that is repeated reports nothing, and the store has one record of each function: the last one that
was passed. -/
theorem reported (history : PassHistory store world passes) :
    (∀ before pass changes after, passes = before ++ (pass, changes) :: after →
      changes = pass.nodes.filterMap fun node =>
        reportOf? (passedRecords (before.map Prod.fst)) pass.memory.id node pass.now) ∧
    (∀ before pass changes repeated again after,
      passes = before ++ (pass, changes) :: (repeated, again) :: after →
        repeated.memory.id = pass.memory.id → repeated.nodes = pass.nodes → again = []) ∧
    ∀ key, ((store world).signatures.filter fun row => row.key = key) =
      (lastRecord? (passedRecords (passes.map Prod.fst)) key).toList :=
  ⟨fun _ _ _ _ split => history.reports split,
    fun _ _ _ _ _ _ split sameMemory sameNodes => history.quiet split sameMemory sameNodes,
    history.remembers.latest⟩

end PassHistory

/-- A pass over one function of a shop, which may have another signature each time. -/
def shopPass (id signature : String) (now : Int) : FunctionPass Store :=
  ⟨.ofStore "shop", [⟨id, id, "", 1, .function, .empty, signature⟩], now⟩

/-- The pass in between mentions another function, and the last one reports the change since the
first. -/
theorem shopPasses_reported :
    let first := shopPass "total" "def total()" 1
    let second := shopPass "print" "def print()" 2
    let third := shopPass "total" "def total(rate)" 3
    let changes := [ChangedFunction.mk "total" "def total()" "def total(rate)"]
    (third.run (second.run (first.run .empty).2).2).1 = .ok changes ∧
      changes = third.nodes.filterMap fun node =>
        reportOf? (passedRecords [first, second]) "shop" node 3 := by
  intro first second third changes
  have shares := RepositoryMemory.shares_ofStore "shop"
  have one : (first.run .empty).1 = .ok [] := by decide +kernel
  have two : (second.run (first.run .empty).2).1 = .ok [] := by decide +kernel
  have three : (third.run (second.run (first.run .empty).2).2).1 = .ok changes := by decide +kernel
  have begins : PassHistory id Store.empty [] := .begins rfl
  have afterOne := begins.records first shares (List.nodup_singleton _) (Prod.ext one rfl)
  have afterTwo := afterOne.records second shares (List.nodup_singleton _) (Prod.ext two rfl)
  have afterThree := afterTwo.records third shares (List.nodup_singleton _) (Prod.ext three rfl)
  exact ⟨three,
    (PassHistory.reported afterThree).1 [(first, []), (second, [])] third changes [] rfl⟩

end MigrationGuard
