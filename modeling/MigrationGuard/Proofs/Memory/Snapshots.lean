/-
This file follows the snapshots of the functions of one repository through a pass
over any store, be it one that fails. Every function is recorded by a write of its
own, so a pass that fails leaves the snapshots of a first part of its functions
and tells nobody which of them changed. How a pass may end is described by the
snapshots it found and the records it makes: with all records written and the
changes told, or with a failure behind some first records. Every pass over a store
that is shared ends in one of these ways, and each of them can be had: a store
that serves a given number of requests and then fails lets a pass come to just
this end. So what passes do to the snapshots can be told without the worlds in
which they ran.
-/

import MigrationGuard.Proofs.Memory.Passes

namespace MigrationGuard

variable {World : Type}

/-! ### Snapshots -/

/-- The snapshots of the functions of a repository, one for each function. -/
def Store.snapshots (store : Store) (repository : String) : List SignatureRecord :=
  store.signatures.filter fun row => row.repository == repository

/-- The snapshots with one more, which takes the place of the one of the same function. -/
def renewed (rows : List SignatureRecord) (record : SignatureRecord) : List SignatureRecord :=
  Keyed.merge SignatureRecord.key SignatureRecord.renew rows record

/-- The change that a record makes to the snapshots: there is one of the same function with another
fingerprint. -/
def changeOver? (rows : List SignatureRecord) (record : SignatureRecord) : Option ChangedFunction :=
  (rows.find? fun row => row.key = record.key).bind fun before =>
    if before.snapshotHash = record.snapshotHash then none
    else some ⟨record.function, before.signature, record.signature⟩

/-- What records change one after the other, and the snapshots that they leave behind. -/
def passOver (rows : List SignatureRecord) :
    List SignatureRecord → List ChangedFunction × List SignatureRecord
  | [] => ([], rows)
  | record :: records =>
    let others := passOver (renewed rows record) records
    ((changeOver? rows record).toList ++ others.1, others.2)

/-- How a pass may end that finds some snapshots: its answer and the snapshots that it leaves. -/
inductive PassEnds (rows records : List SignatureRecord) :
    Except MemoryFailure (List ChangedFunction) → List SignatureRecord → Prop where
  /-- All records are written. -/
  | succeeds : PassEnds rows records (.ok (passOver rows records).1) (passOver rows records).2
  /-- The store fails when some first records are written, and before the others are. -/
  | fails (reached : Nat) (early : reached = 0 ∨ reached < records.length)
    (failure : StoreFailure) :
    PassEnds rows records (.error (.store failure)) (passOver rows (records.take reached)).2

theorem PassEnds.eq_of_ok {rows records later : List SignatureRecord}
    {changes : List ChangedFunction} (ends : PassEnds rows records (.ok changes) later) :
    changes = (passOver rows records).1 := by
  cases ends
  rfl

theorem passOver_append_singleton (rows records : List SignatureRecord)
    (record : SignatureRecord) :
    passOver rows (records ++ [record]) =
      ((passOver rows records).1 ++ (changeOver? (passOver rows records).2 record).toList,
        renewed (passOver rows records).2 record) := by
  induction records generalizing rows with
  | nil => exact Prod.ext (List.append_nil _) rfl
  | cons first records inductionHypothesis =>
    simp only [List.cons_append, passOver, inductionHypothesis, List.append_assoc]

/-! ### One record -/

theorem find_renewed (rows : List SignatureRecord) (record : SignatureRecord)
    (key : String × String) :
    (renewed rows record).find? (fun row => row.key = key) =
      if record.key = key then some record else rows.find? fun row => row.key = key := by
  rw [renewed, Keyed.find_merge SignatureRecord.key_renew]
  split
  · rename_i same
    cases found : rows.find? fun row => row.key = key with
    | none => rfl
    | some first =>
      have alike : first.key = record.key :=
        (of_decide_eq_true (List.find?_some found :)).trans same.symm
      obtain ⟨sameRepository, sameFunction⟩ := Prod.mk.inj alike
      simp only [Option.map_some, Option.getD_some, SignatureRecord.renew, sameRepository,
        sameFunction]
  · rfl

/-- What is reported depends on the snapshot of the function alone, and not on those of others. -/
theorem changeOver_congr {rows others : List SignatureRecord} {record : SignatureRecord}
    (same : (rows.find? fun row => row.key = record.key) =
      others.find? fun row => row.key = record.key) :
    changeOver? rows record = changeOver? others record :=
  congrArg (Option.bind · _) same

/-- A record with the fingerprint of the snapshot changes nothing that would be reported. -/
theorem changeOver_of_same {rows : List SignatureRecord} {record before : SignatureRecord}
    (found : (rows.find? fun row => row.key = record.key) = some before)
    (same : before.snapshotHash = record.snapshotHash) : changeOver? rows record = none := by
  rw [changeOver?, found, Option.bind_some, if_pos same]

/-- The fingerprint of a function does not tell when it was recorded, so a pass may be made again
later. -/
theorem SignatureRecord.snapshotHash_ofNode (id : String) (node : CallNode) (now later : Int) :
    (ofNode id node now).snapshotHash = (ofNode id node later).snapshotHash :=
  rfl

namespace Store

variable (store : Store)

/-- A snapshot is recorded among those of its repository, where it takes the place of the one
before. -/
theorem snapshots_recordSignature (path : String) (record : SignatureRecord) :
    (store.recordSignature path record).snapshots record.repository =
      renewed (store.snapshots record.repository) record := by
  unfold snapshots
  rw [signatures_recordSignature]
  exact Keyed.filter_merge SignatureRecord.key_renew
    (fun _ _ same => congrArg (· == record.repository) (congrArg Prod.fst same))
    (beq_self_eq_true record.repository) _

/-- The snapshot before is among those of the repository, so other repositories make no difference.
-/
theorem previousSignature_eq_find (record : SignatureRecord) :
    store.previousSignature? record =
      (store.snapshots record.repository).find? fun row => row.key = record.key := by
  unfold previousSignature? snapshots
  rw [List.find?_filter]
  refine congrArg (List.find? · _) (funext fun row => ?_)
  rw [sameFunction_eq]
  by_cases same : row.key = record.key
  · simp [same, show row.repository = record.repository from congrArg Prod.fst same]
  · simp [same]

end Store

/-! ### Passes -/

/-- Failures of records are failures of the store, as nothing else is asked on the way. -/
theorem failure_of_mapError {Result : Type} {outcome : Except StoreFailure Result}
    {failure : MemoryFailure} (failed : outcome.mapError MemoryFailure.store = .error failure) :
    ∃ reason, failure = .store reason := by
  cases outcome with
  | error reason => exact ⟨reason, (Except.error.inj failed).symm⟩
  | ok _ => exact nomatch failed

/-- The snapshots of the repository of a memory, in the store that is seen in the world. -/
def RepositoryMemory.snapshotsIn (memory : RepositoryMemory (StateM World)) (store : World → Store)
    (world : World) : List SignatureRecord :=
  (store world).snapshots memory.id

section
variable {memory : RepositoryMemory (StateM World)} {store : World → Store}
  (shares : memory.Shares store)
include shares

/-- A function is recorded and told if it changed, or the store fails and nothing is recorded. -/
theorem recordFunction_cases (node : CallNode) (now : Int) (world : World) :
    let record := SignatureRecord.ofNode memory.id node now
    let rows := memory.snapshotsIn store world
    let outcome := memory.recordFunction node now world
    (outcome.1 = .ok (changeOver? rows record) ∧
      memory.snapshotsIn store outcome.2 = renewed rows record) ∨
    ∃ failure, outcome.1 = .error (.store failure) ∧
      memory.snapshotsIn store outcome.2 = rows := by
  intro record rows outcome
  rcases ran : outcome with ⟨failure | change, later⟩
  · have same := RepositoryMemory.store_of_failed shares ran
    obtain ⟨reason, rfl⟩ := failure_of_mapError (congrArg Prod.fst ran)
    exact Or.inr ⟨reason, rfl, congrArg (Store.snapshots · memory.id) same⟩
  · obtain ⟨becomes, told⟩ := Prod.mk.inj (Except.ok.inj
      (RepositoryMemory.accepted_of_done shares ran))
    have renews : (store later).snapshots memory.id = renewed rows record :=
      becomes ▸ Store.snapshots_recordSignature _ _ record
    refine Or.inl ⟨congrArg Except.ok ?_, renews⟩
    rw [← told, filter_signatureChanged, Store.previousSignature_eq_find, Option.map_bind]
    refine congrArg (Option.bind _) (funext fun before => ?_)
    rw [Function.comp_apply]
    split <;> rfl

/-- Functions are all recorded, or the store fails when some first ones are and the others are not.
-/
theorem recordEach_cases (nodes : List CallNode) (now : Int) (world : World) :
    let records := nodes.map fun node => SignatureRecord.ofNode memory.id node now
    let rows := memory.snapshotsIn store world
    let outcome := memory.recordEach now nodes world
    (outcome.1 = .ok (passOver rows records).1 ∧
      memory.snapshotsIn store outcome.2 = (passOver rows records).2) ∨
    ∃ reached < records.length, ∃ failure, outcome.1 = .error (.store failure) ∧
      memory.snapshotsIn store outcome.2 = (passOver rows (records.take reached)).2 := by
  induction nodes generalizing world with
  | nil => exact Or.inl ⟨rfl, rfl⟩
  | cons node nodes inductionHypothesis =>
    intro records rows outcome
    unfold outcome RepositoryMemory.recordEach
    rw [bind_apply]
    obtain ⟨told, renews⟩ | ⟨failure, failed, same⟩ := recordFunction_cases shares node now world
    · -- The others find the snapshots with the one of the first function.
      have others := inductionHypothesis (memory.recordFunction node now world).2
      rw [renews] at others
      rw [told]
      dsimp only
      rw [bind_apply]
      obtain ⟨done, left⟩ | ⟨reached, early, failure, failed, left⟩ := others
      · rw [done]
        exact Or.inl ⟨rfl, left⟩
      · rw [failed]
        exact Or.inr ⟨reached + 1, Nat.succ_lt_succ early, failure, rfl, left⟩
    · rw [failed]
      exact Or.inr ⟨0, Nat.succ_pos _, failure, rfl, same⟩

theorem leaves_snapshots_lock : Leaves (memory.snapshotsIn store) memory.lock :=
  shares.lock.through fun store => store.snapshots memory.id

theorem leaves_snapshots_look {Result : Type} (look : Store → Result) :
    Leaves (memory.snapshotsIn store) (memory.look look) :=
  (RepositoryMemory.leaves_looking shares.database.load look).through
    fun store => store.snapshots memory.id

theorem leaves_snapshots_remember (collection : TextCollection) (entries : List PlainEntry) :
    Leaves (memory.snapshotsIn store) (memory.remember collection entries) :=
  RepositoryMemory.leaves_remember_of_textless shares (fun store => store.snapshots memory.id)
    (fun _ _ => rfl) collection entries

/-- A pass ends as its records do, unless it does not get the lock or the store. -/
theorem recordFunctions_ends (nodes : List CallNode) (now : Int) (world : World) :
    let records := nodes.map fun node => SignatureRecord.ofNode memory.id node now
    let outcome := memory.recordFunctions nodes now world
    PassEnds (memory.snapshotsIn store world) records outcome.1
      (memory.snapshotsIn store outcome.2) := by
  intro records outcome
  unfold outcome RepositoryMemory.recordFunctions
  rw [bind_apply, ← leaves_snapshots_lock shares world]
  generalize memory.lock world = locked
  obtain ⟨failure | _, world⟩ := locked
  · exact .fails 0 (Or.inl rfl) failure
  dsimp only
  rw [bind_apply, ← leaves_snapshots_look shares (fun _ => ()) world]
  rcases looked : memory.look (fun _ => ()) world with ⟨failure | _, world⟩
  · obtain ⟨reason, rfl⟩ := failure_of_mapError (congrArg Prod.fst looked)
    exact .fails 0 (Or.inl rfl) reason
  dsimp only
  rw [bind_apply]
  obtain ⟨told, left⟩ | ⟨reached, early, failure, failed, left⟩ :=
    recordEach_cases shares nodes now world
  · rw [told]
    dsimp only
    rw [bind_apply, pure_apply, leaves_snapshots_remember shares, left]
    exact .succeeds
  · rw [failed]
    dsimp only
    rw [pure_apply, left]
    exact .fails reached (Or.inr early) failure

end

theorem FunctionPass.run_ends {store : World → Store} (pass : FunctionPass World)
    (shares : pass.memory.Shares store) (world : World) :
    PassEnds (pass.memory.snapshotsIn store world) (pass.nodes.map pass.record) (pass.run world).1
      (pass.memory.snapshotsIn store (pass.run world).2) :=
  recordFunctions_ends shares pass.nodes pass.now world

/-! ### Stores that last for a while -/

/-- A database that serves a number of requests. Then it fails, whatever is asked of it. -/
def Database.lasting (failure : StoreFailure) : Database (StateM (Nat × Store)) where
  load
    | (0, store) => (.error failure, (0, store))
    | (left + 1, store) => (.ok store, (left, store))
  save next := fun (left, _) => (.ok (), (left, next))

theorem Database.holds_lasting (failure : StoreFailure) : (lasting failure).Holds Prod.snd where
  load | (0, _) => rfl | (_ + 1, _) => rfl
  loaded
    | (0, _), _, found => nomatch found
    | (_ + 1, _), _, found => (Except.ok.inj found).symm
  saved _ _ _ := rfl
  unsaved _ _ _ failed := nomatch failed

namespace RepositoryMemory

/-- A memory that nobody else uses, with its store in a database and a lock that is always to be
had. -/
def alone (id path : String) (database : Database (StateM World)) :
    RepositoryMemory (StateM World) where
  path
  id
  lock := return .ok ()
  database
  index := .ofDatabase database
  embedder := .hashed
  minSimilarity := 0.0

theorem shares_alone (id path : String) {database : Database (StateM World)}
    {store : World → Store} (holds : database.Holds store) :
    (alone id path database).Shares store where
  database := holds
  lock := Leaves.pure _
  embed _ := Leaves.pure _
  put := TextIndex.put_ofDatabase holds _

/-- A memory that nobody else uses, with a store that lasts for a while. -/
def lasting (id path : String) (failure : StoreFailure) :
    RepositoryMemory (StateM (Nat × Store)) :=
  alone id path (.lasting failure)

theorem shares_lasting (id path : String) (failure : StoreFailure) :
    (lasting id path failure).Shares Prod.snd :=
  shares_alone id path (Database.holds_lasting failure)

section
variable (id path : String) (failure : StoreFailure) (now : Int) (store : Store)

theorem recordFunction_lasting (node : CallNode) (limit : Nat) :
    let record := SignatureRecord.ofNode id node now
    let outcome := (lasting id path failure).recordFunction node now (limit + 1, store)
    outcome.1 = .ok (changeOver? (store.snapshots id) record) ∧ outcome.2.1 = limit ∧
      outcome.2.2.snapshots id = renewed (store.snapshots id) record := by
  intro record outcome
  obtain ⟨told, renews⟩ | ⟨reason, failed, -⟩ :=
    recordFunction_cases (shares_lasting id path failure) node now (limit + 1, store)
  · exact ⟨told, rfl, renews⟩
  · exact nomatch failed

/-- As many functions are recorded as the store lasts for. If there are more, the store fails. -/
theorem recordEach_lasting (nodes : List CallNode) (limit : Nat) :
    let records := nodes.map fun node => SignatureRecord.ofNode id node now
    let outcome := (lasting id path failure).recordEach now nodes (limit, store)
    outcome.1 = (if nodes.length ≤ limit then .ok (passOver (store.snapshots id) records).1
      else .error (.store failure)) ∧
      outcome.2.2.snapshots id = (passOver (store.snapshots id) (records.take limit)).2 := by
  induction nodes generalizing store limit with
  | nil => exact ⟨rfl, by rw [List.map_nil, List.take_nil]; rfl⟩
  | cons node nodes inductionHypothesis =>
    cases limit with
    | zero => exact ⟨rfl, rfl⟩
    | succ limit =>
      intro records outcome
      obtain ⟨told, counted, renews⟩ := recordFunction_lasting id path failure now store node limit
      unfold outcome recordEach
      rw [bind_apply, told]
      generalize (lasting id path failure).recordFunction node now (limit + 1, store) = recorded
        at counted renews
      obtain ⟨_, left, next⟩ := recorded
      obtain rfl : left = limit := counted
      obtain ⟨others, rows⟩ := inductionHypothesis next left
      rw [show next.snapshots id = _ from renews] at others rows
      dsimp only
      rw [bind_apply, others, List.length_cons]
      by_cases enough : nodes.length ≤ left
      · rw [if_pos enough, if_pos (Nat.succ_le_succ enough)]
        exact ⟨rfl, rows⟩
      · rw [if_neg enough, if_neg fun more => enough (Nat.le_of_succ_le_succ more)]
        exact ⟨rfl, rows⟩

/-- A pass needs the store once to open it and once for each function. -/
theorem recordFunctions_lasting (nodes : List CallNode) (limit : Nat) :
    let records := nodes.map fun node => SignatureRecord.ofNode id node now
    let outcome := (lasting id path failure).recordFunctions nodes now (limit + 1, store)
    outcome.1 = (if nodes.length ≤ limit then .ok (passOver (store.snapshots id) records).1
      else .error (.store failure)) ∧
      outcome.2.2.snapshots id = (passOver (store.snapshots id) (records.take limit)).2 := by
  intro records outcome
  obtain ⟨told, rows⟩ := recordEach_lasting id path failure now store nodes limit
  have locked : (lasting id path failure).lock (limit + 1, store) = (.ok (), (limit + 1, store)) :=
    rfl
  have opened : (lasting id path failure).look (fun _ => ()) (limit + 1, store) =
      (.ok (), (limit, store)) := rfl
  unfold outcome recordFunctions
  rw [bind_apply, locked]
  dsimp only
  rw [bind_apply, opened]
  dsimp only
  rw [bind_apply, told]
  split
  · refine ⟨rfl, ?_⟩
    dsimp only
    rw [bind_apply, pure_apply]
    exact (leaves_snapshots_remember (shares_lasting id path failure) _ _ _).trans rows
  · exact ⟨rfl, rows⟩

/-- Whatever a pass may come to, it comes to when it runs alone with a store that lasts for a
while. -/
theorem exists_recordFunctions_lasting {nodes : List CallNode}
    {answer : Except MemoryFailure (List ChangedFunction)} {rows : List SignatureRecord}
    (ends : PassEnds (store.snapshots id)
      (nodes.map fun node => SignatureRecord.ofNode id node now) answer rows) :
    ∃ limit failure, let outcome :=
        (lasting id path failure).recordFunctions nodes now (limit, store)
      outcome.1 = answer ∧ outcome.2.2.snapshots id = rows := by
  cases ends with
  | succeeds =>
    obtain ⟨told, rows⟩ :=
      recordFunctions_lasting id path .notADatabase now store nodes nodes.length
    refine ⟨nodes.length + 1, .notADatabase, told.trans (if_pos (Nat.le_refl _)), rows.trans ?_⟩
    rw [List.take_of_length_le (Nat.le_of_eq (List.length_map _))]
  | fails reached early failure =>
    rcases early with rfl | early
    · exact ⟨0, failure, rfl, rfl⟩
    · obtain ⟨told, rows⟩ := recordFunctions_lasting id path failure now store nodes reached
      rw [List.length_map] at early
      exact ⟨reached + 1, failure, told.trans (if_neg (Nat.not_le_of_gt early)), rows⟩

end

end RepositoryMemory

end MigrationGuard
