/-
This file says what the operations of memory do to the structured records, up to
times. What holds the store, embeds texts and finds them is arbitrary, as long as
a store that was saved is the one that is loaded, and texts are kept apart from
the records. An operation that fails changes nothing, and one that succeeds
changes the records by a function that is given for it, which depends on what is
recorded and not on the world. Operations that only look, or that remember texts,
leave the records alone whatever comes of them. So the records after a session can
be computed from the records before it, step by step, without knowing which
embedder or which index the memory had.
-/

import MigrationGuard.Proofs.Memory.Untimed
import MigrationGuard.Proofs.Memory.Updates

namespace MigrationGuard

variable {World : Type}

/-! ### What is seen of the records -/

/-- The structured records of the store that is seen in the world, up to times. -/
def recordsIn (store : World → Store) (world : World) : Store :=
  (store world).untimed

/-- Where the action succeeds, it changes the records as given, and else it changes nothing. -/
def Changes {Failure Answer : Type} (store : World → Store)
    (action : StateM World (Except Failure Answer)) (change : Store → Store) : Prop :=
  ∀ world, recordsIn store (action world).2 =
    if (action world).1.toBool then change (recordsIn store world) else recordsIn store world

/-- An action may be asked in between that leaves the records alone, such as what shows the time. -/
theorem Changes.bind_timeless {Failure Asked Answer : Type} {store : World → Store}
    {ask : StateM World Asked} {action : Asked → StateM World (Except Failure Answer)}
    {change : Store → Store} (leaves : Leaves (recordsIn store) ask)
    (each : ∀ asked, Changes store (action asked) change) :
    Changes store (ask >>= action) change := by
  intro world
  have changes := each (ask world).1 (ask world).2
  rw [leaves world] at changes
  exact changes

/-- What follows an action that succeeded may leave the records alone and not fail. -/
theorem Changes.bind_leaves {Failure Answer Result : Type} {store : World → Store}
    {action : StateM World (Except Failure Answer)}
    {next : Except Failure Answer → StateM World (Except Failure Result)}
    {change : Store → Store} (changes : Changes store action change)
    (leaves : ∀ answer, Leaves (recordsIn store) (next answer))
    (succeeds : ∀ answer, Ensures (next answer) fun result => result.toBool = answer.toBool) :
    Changes store (action >>= next) change := by
  intro world
  have last := leaves (action world).1 (action world).2
  have outcome := succeeds (action world).1 (action world).2
  show recordsIn store (next (action world).1 (action world).2).2 =
    if (next (action world).1 (action world).2).1.toBool then _ else _
  rw [last, outcome]
  exact changes world

/-- The parts of a memory keep the store that is seen in the world. -/
structure RepositoryMemory.Keeps (memory : RepositoryMemory (StateM World))
    (store : World → Store) : Prop where
  /-- Taking the lock leaves the records alone. -/
  lock : Leaves (recordsIn store) memory.lock
  /-- Loading leaves the store alone. -/
  load : Leaves store memory.database.load
  /-- What is loaded is the store. -/
  loaded : ∀ world found, (memory.database.load world).1 = .ok found → found = store world
  /-- What is saved becomes the store. -/
  saved : ∀ next world, (memory.database.save next world).1 = .ok () →
    store (memory.database.save next world).2 = next
  /-- A store that cannot be saved leaves the one before. -/
  unsaved : ∀ next world failure, (memory.database.save next world).1 = .error failure →
    store (memory.database.save next world).2 = store world
  /-- Embedding a text leaves the records alone. -/
  embed : ∀ text, Leaves (recordsIn store) (memory.embedder.embed text)
  /-- Texts are kept apart from the records. -/
  put : ∀ collection entries,
    Leaves (recordsIn store) (memory.index.put memory.id collection entries)
  /-- Looking for texts leaves the records alone. -/
  search : ∀ collection query limit,
    Leaves (recordsIn store) (memory.index.search memory.id collection query limit)

namespace RepositoryMemory

variable {memory : RepositoryMemory (StateM World)} {store : World → Store}
  (keeps : memory.Keeps store)

theorem Keeps.holds (keeps : memory.Keeps store) : memory.database.Holds store :=
  ⟨keeps.load, keeps.loaded, keeps.saved, keeps.unsaved⟩

include keeps

/-! ### Looking -/

theorem leaves_load : Leaves (recordsIn store) memory.database.load :=
  keeps.load.through Store.untimed

theorem leaves_look {Result : Type} (look : Store → Result) :
    Leaves (recordsIn store) (memory.look look) :=
  leaves_looking (leaves_load keeps) look

theorem leaves_proactiveWarnings (changes : List PatchChange) :
    Leaves (recordsIn store) (memory.proactiveWarnings changes) :=
  composes_proactiveWarnings (Leaves.composes _) keeps.embed keeps.search (leaves_look keeps _)
    changes

theorem leaves_remember (collection : TextCollection) (entries : List PlainEntry) :
    Leaves (recordsIn store) (memory.remember collection entries) :=
  composes_remember (Leaves.composes _) keeps.embed (keeps.put collection) entries

/-! ### Writes -/

/-- A write that the store accepts is kept, and one that it refuses changes nothing. -/
theorem changes_update {Result : Type} {write : Store → Except StoreFailure (Store × Result)}
    {change : Store → Store}
    (written : ∀ found next result, write found = .ok (next, result) →
      next.untimed = change found.untimed) :
    Changes store (memory.database.update write) change := by
  intro world
  obtain ⟨next, result, accepted, ends, becomes⟩ | ⟨failure, ends, same⟩ :=
    keeps.holds.update_cases write world
  · rw [ends]
    exact (congrArg Store.untimed becomes).trans (written _ next result accepted)
  · rw [ends]
    exact congrArg Store.untimed same

theorem changes_write {Result : Type} {write : Store → Except StoreFailure (Store × Result)}
    {change : Store → Store}
    (written : ∀ found next result, write found = .ok (next, result) →
      next.untimed = change found.untimed) :
    Changes store (memory.write write) change := by
  intro world
  have changes := changes_update keeps written world
  have answers : (memory.write write world).1.toBool =
      (memory.database.update write world).1.toBool := by
    show ((memory.database.update write world).1.mapError MemoryFailure.store).toBool = _
    cases (memory.database.update write world).1 <;> rfl
  rw [answers]
  exact changes

/-! ### Recording -/

omit keeps in
theorem runRecord_untimed (request : RunRequest) (now : Int) :
    (memory.runRecord request now).untimed = (memory.runRecord request 0).untimed := by
  simp only [runRecord, RunRecord.untimed]

theorem changes_recordRun (request : RunRequest) (now : Int) :
    Changes store (memory.recordRun request now)
      fun records => records.withRun memory.path (memory.runRecord request 0).untimed := by
  unfold recordRun
  split
  · exact fun _ => rfl
  · refine changes_write keeps fun found next id written => ?_
    rw [Store.recordRun_eq] at written
    split at written
    · exact nomatch written
    · rw [Except.map, Except.ok.injEq, Prod.mk.injEq] at written
      rw [← written.1, Store.untimed_withRun, runRecord_untimed]

theorem changes_recordFunction (node : CallNode) (now : Int) :
    Changes store (memory.recordFunction node now)
      fun records => records.recordSignature memory.path
        (SignatureRecord.ofNode memory.id node 0).untimed := by
  refine changes_write keeps fun found next changed written => ?_
  obtain ⟨rfl, -⟩ := Prod.mk.inj (Except.ok.inj written)
  exact Store.untimed_recordSignature found memory.path (.ofNode memory.id node now)

theorem changes_recordDrift (request : DriftRequest) (now : Int) :
    Changes store (memory.recordDrift request now)
      fun records => records.recordDrift memory.path (memory.driftRecord request 0).untimed := by
  unfold recordDrift
  split
  · exact fun _ => rfl
  · refine Changes.bind_leaves (changes_write keeps fun found next count written => ?_)
      (fun answer => ?_) fun answer => ?_
    · rw [Except.ok.injEq, Prod.mk.injEq] at written
      rw [← written.1, Store.untimed_recordDrift]
      rfl
    · cases answer with
      | error failure => exact Leaves.pure _
      | ok count => exact Leaves.bind (leaves_remember keeps _ _) fun _ => Leaves.pure _
    · cases answer with
      | error failure => exact Ensures.pure rfl
      | ok count => exact Ensures.bind fun _ => Ensures.pure rfl

end RepositoryMemory

end MigrationGuard
