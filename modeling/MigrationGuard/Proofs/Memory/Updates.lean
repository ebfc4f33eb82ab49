/-
This file says what a database owes to those who share it: what is loaded is the
store, a store that was saved is the one from then on, and one that could not be
saved leaves the one before. A write is then done as a whole or not at all. A
write that is refused or that cannot be saved leaves the store as it was, whoever
asked for it. The store is something that is seen in the world, so several
databases may be connections to the same one, and loading or saving may fail
whenever the world has it so. The calls of a memory are put together from such
writes, from looking something up, embedding texts and taking the lock; what
composes along such sequences is stated for each of the longer calls, so that
later files need not open them.
-/

import MigrationGuard.Memory.Repository
import MigrationGuard.Proofs.Actions

namespace MigrationGuard

variable {World : Type}

namespace Database

/-! ### One write -/

section
variable {Result : Type} {database : Database (StateM World)}
  {write : Store → Except StoreFailure (Store × Result)} {world after left : World} {found : Store}
  {failure : StoreFailure}

theorem update_of_unloaded (loaded : database.load world = (.error failure, after)) :
    database.update write world = (.error failure, after) := by
  show (database.load >>= _) world = _
  simp only [bind, StateT.bind, loaded]
  rfl

theorem update_of_refused (loaded : database.load world = (.ok found, after))
    (refused : write found = .error failure) :
    database.update write world = (.error failure, after) := by
  show (database.load >>= _) world = _
  simp only [bind, StateT.bind, loaded, refused]
  rfl

theorem update_of_unsaved {next : Store} {result : Result}
    (loaded : database.load world = (.ok found, after)) (written : write found = .ok (next, result))
    (saved : database.save next after = (.error failure, left)) :
    database.update write world = (.error failure, left) := by
  show (database.load >>= _) world = _
  simp only [bind, StateT.bind, loaded, written, saved]
  rfl

theorem update_of_saved {next : Store} {result : Result}
    (loaded : database.load world = (.ok found, after)) (written : write found = .ok (next, result))
    (saved : database.save next after = (.ok (), left)) :
    database.update write world = (.ok result, left) := by
  show (database.load >>= _) world = _
  simp only [bind, StateT.bind, loaded, written, saved]
  rfl

end

theorem query_of_loaded {Result : Type} {database : Database (StateM World)} {world after : World}
    {found : Store} (look : Store → Except StoreFailure Result)
    (loaded : database.load world = (.ok found, after)) :
    database.query look world = (look found, after) := by
  show (database.load >>= _) world = _
  simp only [bind, StateT.bind, loaded]
  rfl

/-- Looking something up leaves alone what loading does, whether it succeeds or not. -/
theorem leaves_query {Seen Result : Type} {seen : World → Seen} {database : Database (StateM World)}
    (load : Leaves seen database.load) (look : Store → Except StoreFailure Result) :
    Leaves seen (database.query look) := by
  refine Leaves.bind load fun loaded => ?_
  cases loaded <;> exact Leaves.pure _

/-! ### Databases that hold the store of the world -/

/-- The database holds the store that is seen in the world. Several databases may hold the same one:
they are then connections to it. -/
structure Holds (database : Database (StateM World)) (store : World → Store) : Prop where
  /-- Loading leaves the store alone. -/
  load : Leaves store database.load
  /-- What is loaded is the store. -/
  loaded : ∀ world found, (database.load world).1 = .ok found → found = store world
  /-- What is saved becomes the store. -/
  saved : ∀ next world, (database.save next world).1 = .ok () →
    store (database.save next world).2 = next
  /-- A store that cannot be saved leaves the one before. -/
  unsaved : ∀ next world failure, (database.save next world).1 = .error failure →
    store (database.save next world).2 = store world

/-- The database of a world that is nothing but the store. It never fails. -/
def here : Database (StateM Store) :=
  ⟨fun store => (.ok store, store), fun next _ => (.ok (), next)⟩

theorem holds_here : here.Holds id where
  load _ := rfl
  loaded _ _ found := (Except.ok.inj found).symm
  saved _ _ _ := rfl
  unsaved _ _ _ failed := nomatch failed

variable {Result : Type} {database : Database (StateM World)} {store : World → Store}

/-- Where the store can be loaded, what is looked up is told of the store. -/
theorem Holds.query_of_opens (holds : database.Holds store)
    (look : Store → Except StoreFailure Result) {world : World}
    (opens : (database.load world).1.toBool = true) :
    (database.query look world).1 = look (store world) := by
  rcases loaded : database.load world with ⟨failure | found, after⟩
  · rw [loaded] at opens
    exact nomatch opens
  · have isStore := holds.loaded world found
    rw [loaded] at isStore
    rw [query_of_loaded look loaded, isStore rfl]

/-- A write changes the store as it says and gives its result, or fails and changes nothing. -/
theorem Holds.update_cases (holds : database.Holds store)
    (write : Store → Except StoreFailure (Store × Result)) (world : World) :
    (∃ next result, write (store world) = .ok (next, result) ∧
      (database.update write world).1 = .ok result ∧
      store (database.update write world).2 = next) ∨
    ∃ failure, (database.update write world).1 = .error failure ∧
      store (database.update write world).2 = store world := by
  rcases loaded : database.load world with ⟨failure | found, after⟩
  · have unchanged := holds.load world
    rw [loaded] at unchanged
    rw [update_of_unloaded loaded]
    exact Or.inr ⟨failure, rfl, unchanged⟩
  have unchanged := holds.load world
  have kept := holds.loaded world found
  rw [loaded] at unchanged kept
  obtain rfl := kept rfl
  rcases outcome : write (store world) with failure | ⟨next, result⟩
  · rw [update_of_refused loaded outcome]
    exact Or.inr ⟨failure, rfl, unchanged⟩
  rcases saving : database.save next after with ⟨failure | done, left⟩
  · have unsaved := holds.unsaved next after failure
    rw [saving] at unsaved
    rw [update_of_unsaved loaded outcome saving]
    exact Or.inr ⟨failure, rfl, (unsaved rfl).trans unchanged⟩
  · have saved := holds.saved next after
    rw [saving] at saved
    rw [update_of_saved loaded outcome saving]
    exact Or.inl ⟨next, result, rfl, rfl, saved rfl⟩

/-- A write that fails changes nothing, whether the store refused it or could not be saved. -/
theorem Holds.store_of_failed (holds : database.Holds store)
    {write : Store → Except StoreFailure (Store × Result)} {world later : World}
    {failure : StoreFailure} (failed : database.update write world = (.error failure, later)) :
    store later = store world := by
  have cases := holds.update_cases write world
  rw [failed] at cases
  obtain ⟨_, _, _, ends, _⟩ | ⟨_, _, same⟩ := cases
  · exact nomatch ends
  · exact same

/-- A write that succeeds was accepted by the store that it found, and left what that made of it. -/
theorem Holds.accepted_of_done (holds : database.Holds store)
    {write : Store → Except StoreFailure (Store × Result)} {world later : World}
    {result : Result} (done : database.update write world = (.ok result, later)) :
    write (store world) = .ok (store later, result) := by
  have cases := holds.update_cases write world
  rw [done] at cases
  obtain ⟨_, _, written, ends, becomes⟩ | ⟨_, ends, _⟩ := cases
  · obtain rfl := Except.ok.inj ends
    rw [written, ← becomes]
  · exact nomatch ends

/-- What all accepted writes leave alone is left alone, also by those that fail. -/
theorem Holds.leaves_update {Seen : Type} (holds : database.Holds store) (view : Store → Seen)
    {write : Store → Except StoreFailure (Store × Result)}
    (kept : ∀ found next result, write found = .ok (next, result) → view next = view found) :
    Leaves (fun world => view (store world)) (database.update write) := by
  intro world
  obtain ⟨next, result, written, -, becomes⟩ | ⟨failure, -, same⟩ := holds.update_cases write world
  · exact (congrArg view becomes).trans (kept _ next result written)
  · exact congrArg view same

/-! ### Writes in worlds that are alike -/

/-- Writes answer alike if a view shows the same of the stores that they make wherever it shows the
same of those that they find. -/
theorem agrees_update {Shown : Type} {like : World → World → Prop} {view : Store → Shown}
    {make makeToo : Store → Except StoreFailure (Store × Result)}
    (load : Agrees like (Except.map view) database.load database.load)
    (save : ∀ next other, view next = view other →
      Agrees like id (database.save next) (database.save other))
    (same : ∀ one other, view one = view other →
      (make one).map (Prod.map view id) = (makeToo other).map (Prod.map view id)) :
    Agrees like id (database.update make) (database.update makeToo) := by
  refine Agrees.bind load fun one other alike => ?_
  obtain ⟨failure, rfl, rfl⟩ | ⟨found, foundToo, rfl, rfl, shown⟩ := map_cases alike
  · exact Agrees.pure rfl
  dsimp only
  obtain ⟨failure, outcome, outcomeToo⟩ |
    ⟨⟨next, result⟩, ⟨nextToo, _⟩, outcome, outcomeToo, sameMade⟩ :=
      map_cases (same found foundToo shown)
  · rw [outcome, outcomeToo]
    exact Agrees.pure rfl
  · obtain ⟨sameNext, rfl⟩ := Prod.mk.inj sameMade
    rw [outcome, outcomeToo]
    refine Agrees.bind_same (save next nextToo sameNext) fun saved => ?_
    cases saved <;> exact Agrees.pure rfl

end Database

/-! ### Looking and remembering -/

namespace RepositoryMemory

variable {memory : RepositoryMemory (StateM World)}

theorem leaves_looking {Seen Result : Type} {seen : World → Seen}
    (load : Leaves seen memory.database.load) (look : Store → Result) :
    Leaves seen (memory.look look) :=
  Leaves.bind (Database.leaves_query load _) fun _ => Leaves.pure _

section
variable {property : (Answer : Type) → StateM World Answer → Prop} (composes : Composes property)
  (embed : ∀ text, property _ (memory.embedder.embed text))
include composes embed

theorem composes_embedAll (entries : List PlainEntry) : property _ (memory.embedAll entries) := by
  induction entries with
  | nil => exact composes.pure _
  | cons entry entries inductionHypothesis =>
    exact composes.bind (embed _) fun _ => composes.bind inductionHypothesis fun _ =>
      composes.pure _

/-- Texts are embedded one after the other and then put into the index. -/
theorem composes_remember {collection : TextCollection}
    (put : ∀ texts, property _ (memory.index.put memory.id collection texts))
    (entries : List PlainEntry) : property _ (memory.remember collection entries) := by
  unfold remember
  split
  · exact composes.bind (composes_embedAll composes embed entries) fun _ =>
      composes.bind (put _) fun _ => composes.pure _
  · exact composes.pure _

variable (find : ∀ collection query limit,
  property _ (memory.index.search memory.id collection query limit))
include find

/-- A question is embedded and then looked for, unless it is blank. -/
theorem composes_search (collection : TextCollection) (question : String) (limit : Nat) :
    property _ (memory.search collection question limit) := by
  unfold RepositoryMemory.search
  dsimp only
  split
  · exact composes.pure _
  · refine composes.bind (embed _) fun embedded => ?_
    cases embedded with
    | error failure => exact composes.pure _
    | ok embedding =>
      refine composes.bind (find _ _ _) fun found => ?_
      cases found <;> exact composes.pure _

theorem composes_addSimilar (warnings : List RiskWarning) (changes : List PatchChange) :
    property _ (memory.addSimilar warnings changes) := by
  induction changes generalizing warnings with
  | nil => exact composes.pure _
  | cons change changes inductionHypothesis =>
    rw [addSimilar]
    split
    · exact inductionHypothesis warnings
    · exact composes.bind (composes_search composes embed find _ _ _) fun _ =>
        inductionHypothesis _

/-- Warnings come from the drifts that are known and from questions about the changes. -/
theorem composes_proactiveWarnings (known : property _ memory.knownDrifts)
    (changes : List PatchChange) : property _ (memory.proactiveWarnings changes) := by
  refine composes.bind known fun drifts => ?_
  cases drifts with
  | error failure => exact composes.pure _
  | ok drifts =>
    exact composes.bind (composes_addSimilar composes embed find _ _) fun _ => composes.pure _

end

section
variable {property : (Answer : Type) → StateM World Answer → Prop} (composes : Composes property)
  {now : Int} (each : ∀ node, property _ (memory.recordFunction node now))
include composes each

theorem composes_recordEach (nodes : List CallNode) : property _ (memory.recordEach now nodes) := by
  induction nodes with
  | nil => exact composes.pure _
  | cons node nodes inductionHypothesis =>
    refine composes.bind (each node) fun outcome => ?_
    cases outcome with
    | error failure => exact composes.pure _
    | ok change =>
      refine composes.bind inductionHypothesis fun others => ?_
      cases others <;> exact composes.pure _

/-- Functions are recorded one after the other under the lock, and then their texts are
remembered. -/
theorem composes_recordFunctions (lock : property _ memory.lock)
    (look : property _ (memory.look fun _ => ()))
    (remember : ∀ entries, property _ (memory.remember .functions entries))
    (nodes : List CallNode) : property _ (memory.recordFunctions nodes now) := by
  refine composes.bind lock fun locked => ?_
  cases locked with
  | error failure => exact composes.pure _
  | ok _ =>
    refine composes.bind look fun opened => ?_
    cases opened with
    | error failure => exact composes.pure _
    | ok _ =>
      refine composes.bind (composes_recordEach composes each nodes) fun recorded => ?_
      cases recorded with
      | error failure => exact composes.pure _
      | ok changes => exact composes.bind (remember _) fun _ => composes.pure _

end

end RepositoryMemory

/-! ### Memories that share a store -/

/-- The memory keeps its records and texts in the store that is seen in the world. Several memories
may share one store. -/
structure RepositoryMemory.Shares (memory : RepositoryMemory (StateM World))
    (store : World → Store) : Prop where
  /-- The records are in the store. -/
  database : memory.database.Holds store
  /-- Taking the lock leaves the store alone. -/
  lock : Leaves store memory.lock
  /-- Embedding a text leaves the store alone. -/
  embed : ∀ text, Leaves store (memory.embedder.embed text)
  /-- Texts are put into the store as the store puts them, all or none. -/
  put : ∀ collection entries world,
    store (memory.index.put memory.id collection entries world).2 = store world ∨
      store (memory.index.put memory.id collection entries world).2 =
        (store world).putTexts memory.id collection entries

/-- The index of a database puts texts into its store, all or none. -/
theorem TextIndex.put_ofDatabase {database : Database (StateM World)} {store : World → Store}
    (holds : database.Holds store) (repository : String) (collection : TextCollection)
    (entries : List TextEntry) (world : World) :
    store (((TextIndex.ofDatabase database).put repository collection entries) world).2 =
        store world ∨
      store (((TextIndex.ofDatabase database).put repository collection entries) world).2 =
        (store world).putTexts repository collection entries := by
  unfold TextIndex.ofDatabase
  dsimp only
  split
  · exact Or.inl rfl
  · obtain ⟨next, _, written, -, becomes⟩ | ⟨_, -, same⟩ := holds.update_cases
      (fun found => .ok (found.putTexts repository collection entries, ())) world
    · rw [Except.ok.injEq, Prod.mk.injEq] at written
      exact Or.inr (becomes.trans written.1.symm)
    · exact Or.inl same

namespace RepositoryMemory

/-- A memory in a world that is nothing but the store. Texts are embedded by hashing. -/
def ofStore (id : String) : RepositoryMemory (StateM Store) where
  path := id
  id
  lock := return .ok ()
  database := .here
  index := .ofDatabase .here
  embedder := .hashed
  minSimilarity := 0.0

theorem shares_ofStore (id : String) : (ofStore id).Shares fun store => store where
  database := Database.holds_here
  lock := Leaves.pure _
  embed _ := Leaves.pure _
  put := TextIndex.put_ofDatabase Database.holds_here _

variable {Result : Type} {memory : RepositoryMemory (StateM World)} {store : World → Store}

theorem write_apply (memory : RepositoryMemory (StateM World))
    (write : Store → Except StoreFailure (Store × Result)) (world : World) :
    memory.write write world =
      ((memory.database.update write world).1.mapError .store,
        (memory.database.update write world).2) :=
  rfl

/-- A write that fails changes nothing, and nothing else is told of the failure. -/
theorem store_of_failed (shares : memory.Shares store)
    {write : Store → Except StoreFailure (Store × Result)} {world later : World}
    {failure : MemoryFailure} (failed : memory.write write world = (.error failure, later)) :
    store later = store world := by
  rw [write_apply, Prod.mk.injEq] at failed
  obtain ⟨ends, rfl⟩ := failed
  rcases outcome : memory.database.update write world with ⟨reason | result, left⟩
  · exact shares.database.store_of_failed outcome
  · rw [outcome] at ends
    exact nomatch ends

/-- A write that succeeds was accepted by the store that it found. -/
theorem accepted_of_done (shares : memory.Shares store)
    {write : Store → Except StoreFailure (Store × Result)} {world later : World} {result : Result}
    (done : memory.write write world = (.ok result, later)) :
    write (store world) = .ok (store later, result) := by
  rw [write_apply, Prod.mk.injEq] at done
  obtain ⟨ends, rfl⟩ := done
  rcases outcome : memory.database.update write world with ⟨reason | answer, left⟩
  · rw [outcome] at ends
    exact nomatch ends
  · rw [outcome] at ends
    obtain rfl := Except.ok.inj ends
    exact shares.database.accepted_of_done outcome

/-- Where the store can be loaded, what is looked up is told of the store. -/
theorem look_of_loaded (holds : memory.database.Holds store) (look : Store → Result) {world : World}
    (opens : (memory.database.load world).1.toBool = true) :
    (memory.look look world).1 = .ok (look (store world)) := by
  rw [RepositoryMemory.look, bind_apply, holds.query_of_opens _ opens]
  rfl

/-- What all accepted writes leave alone is left alone by what memory does with them. -/
theorem leaves_write {Seen : Type} (shares : memory.Shares store) (view : Store → Seen)
    {write : Store → Except StoreFailure (Store × Result)}
    (kept : ∀ found next result, write found = .ok (next, result) → view next = view found) :
    Leaves (fun world => view (store world)) (memory.write write) :=
  shares.database.leaves_update view kept

/-- What texts leave alone is left alone when texts are put into the index. -/
theorem leaves_put {Seen : Type} (shares : memory.Shares store) (view : Store → Seen)
    {collection : TextCollection}
    (kept : ∀ found texts, view (found.putTexts memory.id collection texts) = view found)
    (texts : List TextEntry) :
    Leaves (fun world => view (store world)) (memory.index.put memory.id collection texts) := by
  intro world
  obtain same | becomes := shares.put collection texts world
  · exact congrArg view same
  · exact (congrArg view becomes).trans (kept _ texts)

end RepositoryMemory

end MigrationGuard
