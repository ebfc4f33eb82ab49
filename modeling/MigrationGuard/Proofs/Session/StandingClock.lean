/-
This file shows that a memory that works answers the calls of a session alike in
stores that are the same up to when repositories and functions were seen, as long
as the clock stands still. So a world with such a memory is one in which a session
that paused ends as if it had not, the records included. The clock has to stand
still because identities of runs are made of the time: at another time a run might
be refused that was recorded before, or the other way round. What else a store
keeps of times, when a repository was last seen and when a function was recorded,
is never asked for by a session, so stores may differ there. At the end a world
with a shelf and a store beside it has a session paused, saved, loaded and taken
up again, and the records are those of a run without a pause.
-/

import MigrationGuard.Proofs.Memory.Isolation
import MigrationGuard.Proofs.Memory.Passes
import MigrationGuard.Proofs.Session.Recording
import MigrationGuard.Proofs.Session.Resuming

namespace MigrationGuard

variable {World : Type}

/-! ### Stores without the times of repositories and functions -/

namespace Store

/-- The store without the times of its repositories and functions. Runs and drifts keep theirs. -/
def undated (store : Store) : Store :=
  { store with
    repositories := store.untimed.repositories
    signatures := store.untimed.signatures }

variable {one other : Store}

theorem undated_eq_iff : one.undated = other.undated ↔ one.untimed = other.untimed ∧
    one.runs = other.runs ∧ one.drifts = other.drifts ∧ one.documents = other.documents ∧
      one.texts = other.texts := by
  simp only [undated, untimed, Store.mk.injEq]
  constructor
  · rintro ⟨repositories, runs, drifts, signatures, documents, texts⟩
    rw [runs, drifts, documents]
    exact ⟨⟨repositories, rfl, rfl, signatures, rfl, trivial⟩, rfl, rfl, rfl, texts⟩
  · rintro ⟨⟨repositories, -, -, signatures, -, -⟩, runs, drifts, documents, texts⟩
    exact ⟨repositories, runs, drifts, signatures, documents, texts⟩

theorem untimed_of_undated (same : one.undated = other.undated) : one.untimed = other.untimed :=
  (undated_eq_iff.mp same).1

theorem undated_withRun (same : one.undated = other.undated) (path : String) (run : RunRecord) :
    (one.withRun path run).undated = (other.withRun path run).undated := by
  obtain ⟨untimed, runs, rest⟩ := undated_eq_iff.mp same
  refine undated_eq_iff.mpr ⟨?_, ?_, rest⟩
  · rw [untimed_withRun, untimed_withRun, untimed]
  · simp only [withRun, runs]

theorem undated_recordDrift (same : one.undated = other.undated) (path : String)
    (drift : DriftRecord) :
    (one.recordDrift path drift).undated = (other.recordDrift path drift).undated := by
  obtain ⟨untimed, runs, drifts, rest⟩ := undated_eq_iff.mp same
  refine undated_eq_iff.mpr ⟨?_, runs, ?_, rest⟩
  · rw [untimed_recordDrift, untimed_recordDrift, untimed]
  · simp only [recordDrift, drifts]

theorem undated_recordSignature (same : one.undated = other.undated) (path : String)
    {record later : SignatureRecord} (alike : record.untimed = later.untimed) :
    (one.recordSignature path record).undated = (other.recordSignature path later).undated := by
  obtain ⟨untimed, rest⟩ := undated_eq_iff.mp same
  refine undated_eq_iff.mpr ⟨?_, rest⟩
  rw [untimed_recordSignature, untimed_recordSignature, untimed, alike]

theorem undated_putTexts (same : one.undated = other.undated) (repository : String)
    (collection : TextCollection) (entries : List TextEntry) :
    (one.putTexts repository collection entries).undated =
      (other.putTexts repository collection entries).undated := by
  induction entries generalizing one other with
  | nil => exact same
  | cons entry entries inductionHypothesis =>
    refine inductionHypothesis ?_
    obtain ⟨untimed, runs, drifts, documents, texts⟩ := undated_eq_iff.mp same
    refine undated_eq_iff.mpr ⟨untimed, runs, drifts, documents, ?_⟩
    simp only [putText, texts]

theorem untimed_previousSignature? (store : Store) (record : SignatureRecord) :
    (store.previousSignature? record).map SignatureRecord.untimed =
      store.untimed.previousSignature? record.untimed := by
  show _ = (store.signatures.map SignatureRecord.untimed).find? (sameFunction record.untimed)
  rw [List.find?_map]
  rfl

/-- What is told of a function that is recorded does not depend on any time. -/
theorem changedFunction_congr (same : one.untimed = other.untimed) {record later : SignatureRecord}
    (alike : record.untimed = later.untimed) (name : String) :
    let previous := one.previousSignature? record
    let previousToo := other.previousSignature? later
    ((previous.filter fun _ => signatureChanged previous record).map fun before =>
        (⟨name, before.signature, record.signature⟩ : ChangedFunction)) =
      (previousToo.filter fun _ => signatureChanged previousToo later).map fun before =>
        ⟨name, before.signature, later.signature⟩ := by
  intro previous previousToo
  have before : previous.map SignatureRecord.untimed =
      previousToo.map SignatureRecord.untimed := by
    rw [untimed_previousSignature?, untimed_previousSignature?, same, alike]
  have parts : ∀ {first second : SignatureRecord}, first.untimed = second.untimed →
      first.signature = second.signature ∧ first.snapshotHash = second.snapshotHash :=
    fun same => ⟨(congrArg SignatureRecord.signature same :),
      (congrArg SignatureRecord.snapshotHash same :)⟩
  rw [filter_signatureChanged, filter_signatureChanged, (parts alike).1, (parts alike).2]
  rcases previous with _ | first <;> rcases previousToo with _ | second
  · rfl
  · exact nomatch before
  · exact nomatch before
  · obtain ⟨signature, hash⟩ := parts (Option.some.inj before)
    rw [Option.bind_some, Option.bind_some, hash]
    split
    · rfl
    · rw [Option.map_some, Option.map_some, signature]

end Store

/-! ### A memory that works while the clock stands still -/

/-- The stores of both worlds are the same up to when repositories and functions were seen. -/
abbrev SameUndated (store : World → Store) : World → World → Prop :=
  ShowsSame Store.undated store

/-- Worlds whose stores are the same up to these times have the same records up to all times. -/
theorem withRecords_sameUndated {store : World → Store} {first second : World} :
    withRecords (SameUndated store) store first second ↔ SameUndated store first second :=
  and_iff_left_of_imp Store.untimed_of_undated

variable {memory : RepositoryMemory (StateM World)} {store : World → Store}

/-- A memory that works keeps its records, as its store is loaded and saved as it is. -/
theorem RepositoryMemory.Works.keeps (works : memory.Works store) : memory.Keeps store where
  lock := works.lock.through Store.untimed
  load := works.database.load
  loaded := works.database.loaded
  saved := works.database.saved
  unsaved := works.database.unsaved
  embed text := (works.embed text).through Store.untimed
  put _ entries := RepositoryMemory.leaves_put works.toShares Store.untimed
    (fun found texts => found.seen_putTexts Store.untimed (fun _ _ => rfl) _ _ texts) entries
  search collection query limit := (works.search collection query limit).through Store.untimed

section
variable (works : memory.Works store)
include works

section
variable {Result : Type} {make makeToo : Store → Except StoreFailure (Store × Result)}
  (same : ∀ one other : Store, one.undated = other.undated →
    (make one).map (Prod.map Store.undated id) = (makeToo other).map (Prod.map Store.undated id))
include same

theorem agrees_update_undated :
    Agrees (SameUndated store) id (memory.database.update make)
      (memory.database.update makeToo) := by
  refine Database.agrees_update (fun first second alike => ?_) (fun next other shown => ?_) same
  · obtain ⟨left, loading, unchanged⟩ := works.exists_loaded first
    obtain ⟨right, loadingToo, unchangedToo⟩ := works.exists_loaded second
    rw [loading, loadingToo]
    refine ⟨congrArg Except.ok alike, ?_⟩
    show (store left).undated = (store right).undated
    rw [unchanged, unchangedToo, alike]
  · intro first second _
    obtain ⟨left, saving, becomes⟩ := works.exists_saved next first
    obtain ⟨right, savingToo, becomesToo⟩ := works.exists_saved other second
    rw [saving, savingToo]
    refine ⟨rfl, ?_⟩
    show (store left).undated = (store right).undated
    rw [becomes, becomesToo, shown]

theorem agrees_write_undated :
    Agrees (SameUndated store) id (memory.write make) (memory.write makeToo) :=
  Agrees.bind_same (agrees_update_undated works same) fun _ => Agrees.pure rfl

end

theorem agrees_recordFunction_undated (node : CallNode) (now later : Int) :
    Agrees (SameUndated store) id (memory.recordFunction node now)
      (memory.recordFunction node later) := by
  refine agrees_write_undated works fun one other same => ?_
  have alike : (SignatureRecord.ofNode memory.id node now).untimed =
      (SignatureRecord.ofNode memory.id node later).untimed := rfl
  exact congrArg Except.ok (Prod.ext (Store.undated_recordSignature same memory.path alike)
    (Store.changedFunction_congr (Store.untimed_of_undated same) alike node.id))

theorem agrees_recordRun_undated (request : RunRequest) (now : Int) :
    Agrees (SameUndated store) id (memory.recordRun request now)
      (memory.recordRun request now) := by
  unfold RepositoryMemory.recordRun
  split
  · exact Agrees.pure rfl
  · refine agrees_write_undated works fun one other same => ?_
    obtain ⟨-, runs, -⟩ := Store.undated_eq_iff.mp same
    rw [Store.recordRun_eq, Store.recordRun_eq, runs]
    split
    · rfl
    · exact congrArg (fun next => Except.ok (next, _))
        (Store.undated_withRun same memory.path (memory.runRecord request now))

variable (reads : memory.ReadsFrom store)
include reads

theorem agrees_remember_undated (collection : TextCollection) (entries : List PlainEntry) :
    Agrees (SameUndated store) id (memory.remember collection entries)
      (memory.remember collection entries) := by
  refine RepositoryMemory.composes_remember (agrees_composes Store.undated)
    (agrees_embed reads Store.undated) (fun texts => ?_) entries
  rw [reads.index]
  unfold TextIndex.ofDatabase
  dsimp only
  split
  · exact Agrees.pure rfl
  · exact agrees_update_undated works fun one other same =>
      congrArg (fun next => Except.ok (next, ())) (Store.undated_putTexts same _ _ texts)

theorem agrees_recordDrift_undated (request : DriftRequest) (now : Int) :
    Agrees (SameUndated store) id (memory.recordDrift request now)
      (memory.recordDrift request now) := by
  unfold RepositoryMemory.recordDrift
  split
  · exact Agrees.pure rfl
  · refine Agrees.bind_same (agrees_write_undated works fun one other same => ?_)
      fun recorded => ?_
    · have next := Store.undated_recordDrift same memory.path (memory.driftRecord request now)
      obtain ⟨-, -, drifts, -⟩ := Store.undated_eq_iff.mp next
      simp only [Except.map, Prod.map, next, Store.timesSeen, drifts]
    · cases recorded with
      | error failure => exact Agrees.pure rfl
      | ok count =>
        exact Agrees.bind_same (agrees_remember_undated works reads _ _) fun _ => Agrees.pure rfl

omit works in
theorem agrees_knownDrifts_undated :
    Agrees (SameUndated store) id memory.knownDrifts memory.knownDrifts :=
  agrees_look reads Store.undated fun _ => rfl

omit works in
theorem agrees_warnings_undated (changes : List PatchChange) :
    Agrees (SameUndated store) id (memory.proactiveWarnings changes)
      (memory.proactiveWarnings changes) := by
  refine RepositoryMemory.composes_proactiveWarnings (agrees_composes Store.undated)
    (agrees_embed reads Store.undated) (fun collection query limit => ?_)
    (agrees_knownDrifts_undated reads) changes
  rw [reads.index]
  exact agrees_query reads Store.undated fun _ => rfl

end

/-- A memory that works answers alike in stores that are the same up to these times, if its lock
does and the clock stands still. -/
theorem RepositoryMemory.Works.steady (works : memory.Works store) (reads : memory.ReadsFrom store)
    (lock : Agrees (SameUndated store) Except.toBool memory.lock memory.lock) (now : Int) :
    memory.Steady (pure now) (SameUndated store) where
  lock := lock
  look := (agrees_look reads Store.undated fun _ => rfl).taking Except.toBool
  recordFunction node now later :=
    (agrees_recordFunction_undated works node now later).taking Except.toOption
  remember collection entries := (agrees_remember_undated works reads collection entries).taking _
  warnings changes := (agrees_warnings_undated reads changes).taking Except.toOption
  pastRuns _ := (agrees_look reads Store.undated fun _ => rfl).taking _
  knownDrifts := (agrees_knownDrifts_undated reads).taking _
  recordRun request := (agrees_recordRun_undated works request now).taking Except.toBool
  recordDrift request := (agrees_recordDrift_undated works reads request now).taking Except.toBool

/-! ### Sessions with such a memory -/

/-- A session may be taken up again in a world where it remembers and the clock stands still, as
long as the files and the runner do not answer from the store. -/
theorem Surroundings.Remembers.repeats {around : Surroundings (StateM World)}
    {workspaces : List String} (remembers : around.Remembers memory store workspaces)
    (reads : memory.ReadsFrom store)
    (lock : Agrees (SameUndated store) Except.toBool memory.lock memory.lock) {now : Int}
    (stands : around.clock = pure now)
    (answers : ∀ workspace ∈ workspaces, ∀ {Answer Taken : Type} {action : StateM World Answer}
      {taken : Answer → Taken}, WorkspaceCall around workspace action taken →
        ∀ first second, taken (action first).1 = taken (action second).1) :
    around.Repeats (some memory) (SameUndated store) store workspaces where
  trans := Eq.trans
  uses := remembers.uses
  workspace workspace among _ _ _ _ call := by
    have leaves := remembers.workspace workspace among call
    have undated := leaves.through Store.undated
    exact ⟨Agrees.of_leaves undated undated (answers workspace among call),
      leaves.through Store.untimed⟩
  answers kept known := by
    obtain rfl := Option.some.inj known
    rw [stands]
    exact remembers.works.steady reads lock now
  keeps kept known := by
    obtain rfl := Option.some.inj known
    exact remembers.works.keeps
  notify notify known notice other := by
    have leaves := remembers.notify notify known
    exact ⟨Agrees.of_leaves ((leaves _).through Store.undated) ((leaves _).through Store.undated)
      fun _ _ => rfl, (leaves notice).through Store.untimed⟩
  clock := by
    rw [stands]
    exact ⟨Agrees.pure rfl, Leaves.pure now⟩

/-! ### A world with a shelf and a store -/

/-- The shelf beside a store, so that sessions can be saved and remembered in one world. -/
def Shelf.besideStore : Shelf (List UInt8 × Store) :=
  ⟨Prod.fst, fun content world => (content, world.2), fun _ _ => rfl⟩

/-- Whatever is put on the shelf leaves the store beside it alone. -/
theorem Shelf.store_besideStore (content : List UInt8) (world : List UInt8 × Store) :
    (besideStore.put content world).2 = world.2 :=
  rfl

/-- The store beside a shelf is a database, which leaves the shelf alone. -/
def Database.besideShelf : Database (StateM (List UInt8 × Store)) :=
  ⟨fun world => (.ok world.2, world), fun next world => (.ok (), (world.1, next))⟩

theorem Database.holds_besideShelf : besideShelf.Holds Prod.snd where
  load _ := rfl
  loaded _ _ found := (Except.ok.inj found).symm
  saved _ _ _ := rfl
  unsaved _ _ _ failed := nomatch failed

/-- The memory of the shop in such a world, with texts embedded by hashing. -/
def RepositoryMemory.besideShelf : RepositoryMemory (StateM (List UInt8 × Store)) where
  path := "shop"
  id := "shop"
  lock := return .ok ()
  database := .besideShelf
  index := .ofDatabase .besideShelf
  embedder := .hashed
  minSimilarity := 0.0

theorem RepositoryMemory.works_besideShelf : besideShelf.Works Prod.snd where
  database := Database.holds_besideShelf
  lock := Leaves.pure _
  embed _ := Leaves.pure _
  put := TextIndex.put_ofDatabase Database.holds_besideShelf _
  loads _ := rfl
  saves _ _ := rfl
  search _ _ _ := Database.leaves_query (fun _ => rfl) _

theorem RepositoryMemory.readsFrom_besideShelf : besideShelf.ReadsFrom Prod.snd where
  load _ := rfl
  loaded _ := rfl
  index := rfl
  embed _ := Leaves.pure _
  embeds _ _ _ := rfl

/-- The sources of a shop that bills its customers with one function. -/
def billingSources : FileTree :=
  .directory [("billing.py", .file (Text.encode "def pay():\n    return 1\n"))]

/-- A world in which sessions are saved and remembered. Every workspace holds the same function, the
tests pass in the old workspace only, and the clock stands still. -/
def standingSurroundings : Surroundings (StateM (List UInt8 × Store)) where
  settings := {}
  files := Shelf.besideStore.files strictSession "" billingSources
  runner call := return strictOutcome call
  memory := some (.ofRepository .besideShelf (pure 0))
  notify := none
  clock := pure 0

/-- The report of the strict session is looked for elsewhere than on the shelf. -/
theorem strictSession_apart : ∀ workspace ∈ [strictSession.repository, "new"],
    Path.join workspace ({} : HarnessSettings).reportFile ≠ strictSession.savedPath := by
  decide

theorem standingSurroundings_repeats :
    standingSurroundings.Repeats (some .besideShelf) (SameUndated Prod.snd) Prod.snd
      [strictSession.repository, "new"] := by
  refine Surroundings.Remembers.repeats
    { uses := rfl, works := RepositoryMemory.works_besideShelf, workspace := ?_,
      notify := fun _ known => (nomatch known), clock := fun _ => rfl }
    RepositoryMemory.readsFrom_besideShelf (Agrees.pure rfl) rfl ?_
  · intro _ _ _ _ _ _ call world
    cases call with
    | write name content =>
      simp only [standingSurroundings, Shelf.files]
      split_ifs <;> rfl
    | read =>
      simp only [standingSurroundings, Shelf.files]
      split_ifs <;> rfl
    | _ => rfl
  · intro workspace among _ _ _ _ call
    exact Shelf.answers_files rfl (fun _ _ _ => rfl) (strictSession_apart workspace among) call

theorem strictSession_passes :
    (runSession standingSurroundings strictSession ([], .empty)).1.progress = .riskAnalyzed := by
  decide +kernel

theorem strictSession_legible :
    (runSession standingSurroundings strictSession ([], .empty)).1.Legible := by
  decide +kernel

/-- The strict session pauses in this world and is saved and loaded. Taken up again, it ends as if
it had not paused, and leaves the same records. -/
theorem strictSession_resumed_saved :
    let around := standingSurroundings
    let like := SameUndated Prod.snd
    let straight := runSession around { strictSession with migratedPath := some "new" } ([], .empty)
    let paused := runSession around strictSession ([], .empty)
    paused.1.progress = .riskAnalyzed ∧
      paused.1.EndsAs around like Prod.snd "new" paused.2 straight ∧
      ∃ path saved again left, saveSession around.files paused.1 paused.2 = (.ok path, saved) ∧
        loadSession around.files path saved = (.ok again, left) ∧
        again.EndsAs around like Prod.snd "new" left straight := by
  have same : ∀ {first second : List UInt8 × Store}, first.2 = second.2 →
      withRecords (SameUndated Prod.snd) Prod.snd first second := fun same =>
    withRecords_sameUndated.mpr (congrArg Store.undated same)
  have starts : withRecords (SameUndated Prod.snd) Prod.snd ([], .empty) ([], .empty) := same rfl
  have resumes := resumeSession_of_saved standingSurroundings_repeats rfl rfl starts
  have place := savedPath_runSession standingSurroundings strictSession ([], .empty)
  have passes := strictSession_passes
  have legible := strictSession_legible
  -- from here on the session may be any that paused, so its run need not be unfolded again
  dsimp only at resumes ⊢
  generalize runSession standingSurroundings strictSession ([], .empty) = paused
    at resumes place passes legible ⊢
  obtain ⟨ends, stored⟩ := resumes passes
  let saved := Shelf.besideStore.put (Text.encode paused.1.toText) paused.2
  have written : saveSession standingSurroundings.files paused.1 paused.2 =
      (.ok paused.1.savedPath, saved) :=
    Shelf.besideStore.saveSession_files "" billingSources place paused.2
  have keeps : standingSurroundings.files.KeepsSaved paused.1 paused.2 :=
    Shelf.besideStore.keepsSaved_files "" billingSources place paused.2
  have unmoved : (loadSession standingSurroundings.files paused.1.savedPath saved).2 = saved :=
    Shelf.besideStore.loadSession_files strictSession "" billingSources _ saved
  have between : withRecords (SameUndated Prod.snd) Prod.snd paused.2 saved :=
    same (Shelf.store_besideStore (Text.encode paused.1.toText) paused.2).symm
  rw [← unmoved] at between
  obtain ⟨again, loads, endsToo⟩ := (stored _ _ keeps written between).mpr legible
  have loaded := Prod.mk.eta.symm.trans (congrArg (fun result => (result, _)) loads)
  exact ⟨passes, ends _ (same rfl), _, _, again, _, written, loaded, endsToo⟩

end MigrationGuard
