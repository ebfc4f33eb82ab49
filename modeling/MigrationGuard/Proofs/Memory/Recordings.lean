/-
This file says what a memory that works adds to its store. A run that is recorded
becomes a row of its own, unless one with its identity is there. A drift that is
recorded counts once, whether it is a new one or one that was seen before, and not
at all if it names no function. Nothing else that a session asks of memory touches
the runs or the drifts. A memory works if its store can always be loaded and
saved; embedding texts and finding them may fail, which changes nothing about the
counts. What a whole call of a session adds to the runs and the drifts is put
together from these facts.
-/

import MigrationGuard.Proofs.Memory.Writes

namespace MigrationGuard

variable {World : Type}

/-! ### Runs and drifts of a store -/

namespace Store

/-- The runs and the drifts, which are what the counts of sessions are told from. -/
def tallied (store : Store) : List RunRecord × List DriftRecord :=
  (store.runs, store.drifts)

/-- How often drifts of a repository were recorded, all of them taken together. -/
def occurrences (store : Store) (repository : String) : Int :=
  ((store.drifts.filter fun row => row.repository = repository).map DriftRecord.timesSeen).sum

theorem occurrences_recordDrift (store : Store) (path : String) (drift : DriftRecord) :
    (store.recordDrift path drift).occurrences drift.repository =
      store.occurrences drift.repository + 1 := by
  have told : ∀ first later : DriftRecord, first.key = later.key →
      decide (first.repository = drift.repository) =
        decide (later.repository = drift.repository) := by
    intro first later same
    have repository : first.repository = later.repository := congrArg Prod.fst same
    rw [repository]
  have goes : decide (drift.once.repository = drift.repository) = true := decide_eq_true rfl
  have once : ∀ first : DriftRecord,
      (first.recur drift.once).timesSeen = first.timesSeen + drift.once.timesSeen := fun _ => rfl
  rw [occurrences, drifts_recordDrift, Keyed.filter_merge DriftRecord.key_recur told goes,
    Keyed.sum_merge once]
  rfl

theorem occurrences_congr {store other : Store} (same : store.drifts = other.drifts)
    (repository : String) : store.occurrences repository = other.occurrences repository := by
  rw [occurrences, occurrences, same]

end Store

/-! ### Names of sessions -/

theorem Hash.Blake3.exists_treeRoot (levels : Nat) {blocks : List Hash.Blake3.Block}
    (some : blocks ≠ []) : ∃ root, Hash.Blake3.treeRoot levels blocks = .some root := by
  induction levels generalizing blocks with
  | zero =>
    match blocks, some with
    | [block], _ => exact ⟨block, rfl⟩
    | block :: _ :: _, _ => exact ⟨block, rfl⟩
  | succ levels inductionHypothesis =>
    match blocks, some with
    | [block], _ => exact ⟨block, rfl⟩
    | _ :: _ :: _, _ => exact inductionHypothesis (List.cons_ne_nil _ _)

theorem Hash.Blake3.hash_ne_nil (bytes : List UInt8) : Hash.Blake3.hash bytes ≠ [] := by
  have blocks : Hash.Blake3.chunkBlocks bytes ≠ [] := by
    unfold Hash.Blake3.chunkBlocks
    split
    · exact List.cons_ne_nil _ _
    · rename_i missing
      exact fun none => missing (List.mapIdx_eq_nil_iff.mp none)
  obtain ⟨root, isRoot⟩ := Hash.Blake3.exists_treeRoot (Hash.Blake3.chunkBlocks bytes).length blocks
  rw [Hash.Blake3.hash, isRoot]
  exact List.cons_ne_nil _ _

theorem Hash.isBlank_hexDigit : ∀ value < 16, Text.isBlank (Hash.hexDigit value) = false := by
  decide

/-- A session that begins is given a name that is not blank, so its run can be recorded. -/
theorem allBlank_sessionId (repository : String) (now : Int) :
    Text.allBlank (sessionId repository now) = false := by
  obtain ⟨byte, bytes, hashed⟩ := List.exists_cons_of_ne_nil
    (Hash.Blake3.hash_ne_nil (Text.encode (repository ++ ":" ++ toString now)))
  have high : byte.toNat / 16 < 16 := Nat.div_lt_of_lt_mul byte.toNat_lt
  rw [sessionId, shortHash, contentHash, Hash.hexText, hashed, Text.truncate, Text.allBlank,
    String.toList_ofList, String.toList_ofList, List.flatMap_cons, Hash.hexByte]
  show (Text.isBlank (Hash.hexDigit (byte.toNat / 16)) && _) = false
  rw [Hash.isBlank_hexDigit _ high, Bool.false_and]

/-- The run as a store keeps it, with numbers that are not finite left out. -/
def RunRecord.kept (run : RunRecord) : RunRecord :=
  { run with
    preservationPct := run.preservationPct.map Store.keptNumber
    riskScore := run.riskScore.map Store.keptNumber }

namespace RepositoryMemory

/-! ### A memory that works -/

/-- The memory keeps its records in the store that is seen in the world, and its store can always be
loaded and saved. Embedding texts and finding them may fail. -/
structure Works (memory : RepositoryMemory (StateM World)) (store : World → Store) : Prop
    extends memory.Shares store where
  /-- The store can be loaded. -/
  loads : ∀ world, (memory.database.load world).1.toBool = true
  /-- The store can be saved. -/
  saves : ∀ next world, (memory.database.save next world).1.toBool = true
  /-- Looking for texts leaves the store alone. -/
  search : ∀ collection query limit,
    Leaves store (memory.index.search memory.id collection query limit)

namespace Works

variable {memory : RepositoryMemory (StateM World)} {store : World → Store}
  (works : memory.Works store)
include works

/-- The store is loaded as it is seen in the world and stays as it was. -/
theorem exists_loaded (world : World) :
    ∃ after, memory.database.load world = (.ok (store world), after) ∧
      store after = store world := by
  have opens := works.loads world
  have isStore := works.database.loaded world
  have unchanged := works.database.load world
  rcases loaded : memory.database.load world with ⟨failure | found, after⟩
  · rw [loaded] at opens
    exact nomatch opens
  · rw [loaded] at isStore unchanged
    exact ⟨after, by rw [isStore found rfl], unchanged⟩

/-- A store that is to be saved becomes the one that is seen in the world. -/
theorem exists_saved (next : Store) (world : World) :
    ∃ later, memory.database.save next world = (.ok (), later) ∧ store later = next := by
  have closes := works.saves next world
  have becomes := works.database.saved next world
  rcases saving : memory.database.save next world with ⟨failure | done, later⟩
  · rw [saving] at closes
    exact nomatch closes
  · rw [saving] at becomes
    exact ⟨later, rfl, becomes rfl⟩

/-- A write that the store accepts is done, as nothing else can go wrong. -/
theorem write_accepted {Result : Type} (write : Store → Except StoreFailure (Store × Result))
    (world : World) {next : Store} {result : Result}
    (accepted : write (store world) = .ok (next, result)) :
    ∃ later, memory.write write world = (.ok result, later) ∧ store later = next := by
  obtain ⟨after, loaded, -⟩ := works.exists_loaded world
  obtain ⟨later, saving, becomes⟩ := works.exists_saved next after
  refine ⟨later, ?_, becomes⟩
  rw [write_apply, Database.update_of_saved loaded accepted saving]
  rfl

/-- A write that the store refuses is not done, and the store stays as it was. -/
theorem write_refused {Result : Type} (write : Store → Except StoreFailure (Store × Result))
    (world : World) {failure : StoreFailure} (refused : write (store world) = .error failure) :
    ∃ later, memory.write write world = (.error (.store failure), later) ∧
      store later = store world := by
  obtain ⟨after, loaded, unchanged⟩ := works.exists_loaded world
  refine ⟨after, ?_, unchanged⟩
  rw [write_apply, Database.update_of_refused loaded refused]
  rfl

/-! ### Recording -/

/-- A run of a named session is recorded, if none has its identity. -/
theorem recordRun_of_free (request : RunRequest) (now : Int) (world : World)
    (named : Text.allBlank request.session = false)
    (free : ∀ row ∈ (store world).runs, row.id ≠ (memory.runRecord request now).id) :
    ∃ later,
      memory.recordRun request now world = (.ok (memory.runRecord request now).id, later) ∧
        store later = (store world).withRun memory.path (memory.runRecord request now) := by
  let record := memory.runRecord request now
  let write := fun found : Store =>
    (found.recordRun memory.path record).map fun next => (next, record.id)
  have missing : ((store world).runs.any fun row => row.id == record.id) = false := by
    rw [List.any_eq_false]
    exact fun row among => by simpa using free row among
  have accepted : write (store world) =
      .ok ((store world).withRun memory.path record, record.id) := by
    simp only [write, Store.recordRun_eq, missing]
    rfl
  obtain ⟨later, wrote, becomes⟩ := works.write_accepted write world accepted
  refine ⟨later, ?_, becomes⟩
  rw [recordRun, named]
  exact wrote

/-- A run with an identity that is there already is refused, and the rows stay as they are. -/
theorem recordRun_of_taken (request : RunRequest) (now : Int) (world : World)
    (named : Text.allBlank request.session = false)
    (taken : ∃ row ∈ (store world).runs, row.id = (memory.runRecord request now).id) :
    ∃ later,
      memory.recordRun request now world =
          (.error (.store (.duplicate "pipeline_runs.run_id")), later) ∧
        store later = store world := by
  let record := memory.runRecord request now
  let write := fun found : Store =>
    (found.recordRun memory.path record).map fun next => (next, record.id)
  have present : ((store world).runs.any fun row => row.id == record.id) = true := by
    obtain ⟨row, among, same⟩ := taken
    exact List.any_eq_true.mpr ⟨row, among, beq_iff_eq.mpr same⟩
  have refused : write (store world) = .error (.duplicate "pipeline_runs.run_id") := by
    simp only [write, Store.recordRun_eq, present]
    rfl
  obtain ⟨later, ends, same⟩ := works.write_refused write world refused
  refine ⟨later, ?_, same⟩
  rw [recordRun, named]
  exact ends

/-- A run of a named session is added to the rows, if none of them has its identity. -/
theorem tallied_recordRun (request : RunRequest) (now : Int) (world : World)
    (named : Text.allBlank request.session = false)
    (free : ∀ row ∈ (store world).runs, row.id ≠ (memory.runRecord request now).id) :
    (store (memory.recordRun request now world).2).tallied =
      ((store world).runs ++ [(memory.runRecord request now).kept], (store world).drifts) := by
  obtain ⟨later, recorded, becomes⟩ := works.recordRun_of_free request now world named free
  rw [recorded, becomes]
  rfl

/-- A drift with a description counts once if it has a function, and not at all if it has none. -/
theorem recordDrift_adds (request : DriftRequest) (now : Int) (world : World)
    (described : Text.allBlank request.description = false) :
    let later := (memory.recordDrift request now world).2
    (store later).runs = (store world).runs ∧
      (store later).occurrences memory.id = (store world).occurrences memory.id +
        if Text.allBlank request.function then 0 else 1 := by
  intro later
  by_cases nameless : Text.allBlank request.function
  · have rejected : later = world := by
      simp only [later, recordDrift, nameless, Bool.true_or, if_true]
      rfl
    rw [rejected, if_pos nameless, Int.add_zero]
    exact ⟨rfl, rfl⟩
  let record := memory.driftRecord request now
  let write := fun found : Store =>
    let next := found.recordDrift memory.path record
    (Except.ok (next, next.timesSeen record) : Except StoreFailure (Store × Int))
  obtain ⟨wrote, done, becomes⟩ := works.write_accepted write world rfl
  have remembers := leaves_remember_of_textless works.toShares Store.tallied (fun _ _ => rfl)
    .drifts [driftEntry memory.id record.function record.description request
      (((store world).recordDrift memory.path record).timesSeen record)] wrote
  have recorded : (store later).tallied =
      ((store world).recordDrift memory.path record).tallied := by
    have valid : (Text.allBlank request.function || Text.allBlank request.description) = false := by
      rw [Bool.eq_false_iff.mpr nameless, described, Bool.or_false]
    refine Eq.trans ?_ (remembers.trans (congrArg Store.tallied becomes))
    simp only [later, recordDrift, valid]
    rw [if_neg Bool.false_ne_true, bind_apply, done]
    rfl
  have sameDrifts : (store later).drifts = ((store world).recordDrift memory.path record).drifts :=
    congrArg Prod.snd recorded
  have runs : (store later).runs = (store world).runs := congrArg Prod.fst recorded
  rw [if_neg nameless, Store.occurrences, sameDrifts]
  exact ⟨runs, Store.occurrences_recordDrift (store world) memory.path record⟩

/-! ### Asking -/

theorem leaves_look {Result : Type} (look : Store → Result) : Leaves store (memory.look look) :=
  leaves_looking works.database.load look

/-- Recording functions is none of the recordings that are counted, whether it succeeds or fails. -/
theorem leaves_recordFunctions (nodes : List CallNode) (now : Int) :
    Leaves (fun world => (store world).tallied) (memory.recordFunctions nodes now) := by
  refine composes_recordFunctions (Leaves.composes _) (fun node => ?_)
    (works.lock.through Store.tallied) ((works.leaves_look _).through Store.tallied)
    (leaves_remember_of_textless works.toShares Store.tallied (fun _ _ => rfl) _) nodes
  refine leaves_write works.toShares Store.tallied fun found next result accepted => ?_
  obtain ⟨rfl, -⟩ := Prod.mk.inj (Except.ok.inj accepted)
  rfl

theorem leaves_proactiveWarnings (changes : List PatchChange) :
    Leaves store (memory.proactiveWarnings changes) :=
  composes_proactiveWarnings (Leaves.composes store) works.embed works.search (works.leaves_look _)
    changes

end Works

theorem works_ofStore (id : String) : (ofStore id).Works fun store => store where
  toShares := shares_ofStore id
  loads _ := rfl
  saves _ _ := rfl
  search _ _ _ := Database.leaves_query (fun _ => rfl) _

end RepositoryMemory

end MigrationGuard
