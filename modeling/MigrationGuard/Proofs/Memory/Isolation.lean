/-
This file proves how far repositories that share one store are apart. Recording
something about one of them changes nothing that another one reads. Only a review
reaches further: it names a session and no repository, so that another repository
reads the review on all its documents of that session, and nothing else changes
for it. The store is cut into parts, one for each repository: what a repository
reads is told from its own part, and a write about one repository leaves the parts
of all others alone. Both are shown for each kind of call, with any memory that
finds its texts in the store, and the main theorem puts them together for every
operation, whether it succeeds or fails. At the end two repositories have
documents of sessions with the same name, and one of them rejects those of the
other.
-/

import MigrationGuard.Proofs.Memory.Parts
import MigrationGuard.Proofs.Memory.Writes

namespace MigrationGuard

variable {World : Type}

/-- A write about one repository leaves the parts of all others alone, whatever it writes. -/
theorem StoreWrite.partOf_after {write : StoreWrite} {id other : String}
    (about : write.repository? = some id) (apart : id ≠ other) (found : Store) :
    (write.after found).partOf other = found.partOf other := by
  cases write with
  | review => exact nomatch about
  | touch =>
    obtain rfl := Option.some.inj about
    exact found.partOf_touch apart _ _
  | run =>
    obtain rfl := Option.some.inj about
    exact found.partOf_withRun apart _
  | drift =>
    obtain rfl := Option.some.inj about
    exact found.partOf_recordDrift apart _
  | signature =>
    obtain rfl := Option.some.inj about
    exact found.partOf_recordSignature apart _
  | document =>
    obtain rfl := Option.some.inj about
    exact found.partOf_withDocument apart _
  | texts =>
    obtain rfl := Option.some.inj about
    exact found.partOf_putTexts apart _ _

namespace RepositoryMemory

/-! ### Calls -/

/-- The call reads something else than documents, which no review of another repository reaches. -/
inductive Looking (memory : RepositoryMemory (StateM World)) :
    {Answer : Type} → StateM World (Except MemoryFailure Answer) → Prop where
  /-- The latest runs. -/
  | pastRuns (limit : Nat) : Looking memory (memory.pastRuns limit)
  /-- The drifts. -/
  | knownDrifts : Looking memory memory.knownDrifts
  /-- The functions. -/
  | signatures : Looking memory memory.signatures
  /-- The record of the repository and how much there is of everything. -/
  | stats : Looking memory memory.stats
  /-- Texts that resemble a question. -/
  | search (collection : TextCollection) (question : String) (limit : Nat) :
    Looking memory (memory.search collection question limit)
  /-- Warnings about changes. -/
  | warnings (changes : List PatchChange) : Looking memory (memory.proactiveWarnings changes)
  /-- What there is on a topic. -/
  | context (topic : String) : Looking memory (memory.context topic)

/-- The call reads documents, on which reviews of other repositories can be seen. -/
inductive DocumentLooking (memory : RepositoryMemory (StateM World)) :
    {Answer : Type} → StateM World (Except MemoryFailure Answer) → Prop where
  /-- The latest documents. -/
  | documents (limit : Nat) : DocumentLooking memory (memory.documents limit)
  /-- The text that was approved last. -/
  | latestApproved : DocumentLooking memory memory.latestApproved

/-! ### What recording leaves alone -/

section
variable {memory : RepositoryMemory (StateM World)} {store : World → Store} {other : String}
  (shares : memory.Shares store) (apart : memory.id ≠ other)
include shares apart

/-- Whatever a memory does about its own repository leaves the parts of all others alone. -/
theorem does_leaves_part :
    memory.Does (fun write => write.repository? = some memory.id)
      fun _ => Leaves fun world => (store world).partOf other where
  toComposes := Leaves.composes _
  lock := shares.lock.through (Store.partOf · other)
  look look := leaves_looking (shares.database.load.through (Store.partOf · other)) look
  embed text := (shares.embed text).through (Store.partOf · other)
  put collection texts := leaves_put shares (Store.partOf · other)
    (fun found texts => found.partOf_putTexts apart collection texts) texts
  write _ about makes := leaves_write shares (Store.partOf · other) fun found _ _ made =>
    makes.eq_after made ▸ StoreWrite.partOf_after about apart found

/-! ### What a review reaches -/

omit apart in
theorem store_of_reviewDocuments (session status : String) (comment : Option String) (now : Int)
    (world : World) :
    let reviewed := memory.reviewDocuments session status comment now world
    reviewed.1.toBool = true ∧
        store reviewed.2 = (store world).reviewSession session status comment now ∨
      reviewed.1.toBool = false ∧ store reviewed.2 = store world := by
  intro reviewed
  rcases outcome : reviewed with ⟨failure | count, later⟩
  · exact Or.inr ⟨rfl, store_of_failed shares outcome⟩
  · have accepted := accepted_of_done shares outcome
    rw [Except.ok.injEq, Prod.mk.injEq] at accepted
    exact Or.inl ⟨rfl, accepted.1.symm⟩

/-- A review that succeeds reaches the part of every repository, and one that fails none. -/
theorem part_of_reviewing {session status : String} {comment : Option String} {now : Int}
    {Answer : Type} {action : StateM World (Except MemoryFailure Answer)}
    (reviewing : memory.Reviewing session status comment now action) (world : World) :
    (action world).1.toBool = true ∧ (store (action world).2).partOf other =
        ((store world).reviewSession session status comment now).partOf other ∨
      (action world).1.toBool = false ∧
        (store (action world).2).partOf other = (store world).partOf other := by
  cases reviewing with
  | review =>
    obtain ⟨done, becomes⟩ | ⟨fails, same⟩ :=
      store_of_reviewDocuments shares session status comment now world
    · exact Or.inl ⟨done, congrArg (Store.partOf · other) becomes⟩
    · exact Or.inr ⟨fails, congrArg (Store.partOf · other) same⟩
  | approval markdown =>
    have reviewed := store_of_reviewDocuments shares session Store.approvedStatus none now world
    unfold recordApproved
    rw [bind_apply]
    rcases outcome : memory.reviewDocuments session Store.approvedStatus none now world with
      ⟨failure | count, later⟩
    · rw [outcome] at reviewed
      obtain ⟨done, -⟩ | ⟨-, same⟩ := reviewed
      · exact nomatch done
      · exact Or.inr ⟨rfl, congrArg (Store.partOf · other) same⟩
    · rw [outcome] at reviewed
      have kept := (does_leaves_part shares apart).remember .documents
        (documentEntries memory.id session markdown) later
      obtain ⟨-, becomes⟩ | ⟨fails, -⟩ := reviewed
      · exact Or.inl ⟨rfl, kept.trans (congrArg (Store.partOf · other) becomes)⟩
      · exact nomatch fails

end

end RepositoryMemory

/-! ### What is read of a part -/

/-- The memory reads the store that is seen in the world: it can be loaded, texts are looked for in
it, and a text has one embedding. -/
structure RepositoryMemory.ReadsFrom (memory : RepositoryMemory (StateM World))
    (store : World → Store) : Prop where
  /-- Loading leaves the store alone. -/
  load : Leaves store memory.database.load
  /-- The store is loaded. -/
  loaded : ∀ world, (memory.database.load world).1 = .ok (store world)
  /-- Texts are looked for in the store. -/
  index : memory.index = .ofDatabase memory.database
  /-- Embedding a text leaves the store alone. -/
  embed : ∀ text, Leaves store (memory.embedder.embed text)
  /-- A text is embedded in the same way in every world. -/
  embeds : ∀ text first second,
    (memory.embedder.embed text first).1 = (memory.embedder.embed text second).1

/-- In both worlds a view shows the same of the store, however they differ otherwise. -/
def ShowsSame (view : Store → Store) (store : World → Store) (first second : World) : Prop :=
  view (store first) = view (store second)

section
variable {memory : RepositoryMemory (StateM World)} {store : World → Store}
  (reads : memory.ReadsFrom store) (view : Store → Store)
include reads

theorem query_apply {Result : Type} (look : Store → Except StoreFailure Result) (world : World) :
    memory.database.query look world = (look (store world), (memory.database.load world).2) :=
  Database.query_of_loaded look (Prod.ext (reads.loaded world) rfl)

theorem look_apply {Result : Type} (look : Store → Result) (world : World) :
    memory.look look world = (.ok (look (store world)), (memory.database.load world).2) := by
  show (memory.database.query _ >>= _) world = _
  rw [bind_apply, query_apply reads]
  rfl

/-- What is told from a view is told alike where the view shows the same, whether it can be told or
not. -/
theorem agrees_query {Result : Type} {look : Store → Except StoreFailure Result}
    (told : ∀ found, look (view found) = look found) :
    Agrees (ShowsSame view store) id (memory.database.query look) (memory.database.query look) := by
  intro first second alike
  rw [query_apply reads, query_apply reads]
  constructor
  · exact (told _).symm.trans ((congrArg look alike).trans (told _))
  · have left := reads.load.through view first
    have right := reads.load.through view second
    exact left.trans (alike.trans right.symm)

theorem agrees_look {Result : Type} {look : Store → Result}
    (told : ∀ found, look (view found) = look found) :
    Agrees (ShowsSame view store) id (memory.look look) (memory.look look) :=
  Agrees.bind_same (agrees_query reads view fun found => congrArg Except.ok (told found))
    fun _ => Agrees.pure rfl

theorem agrees_embed (text : String) :
    Agrees (ShowsSame view store) id (memory.embedder.embed text) (memory.embedder.embed text) := by
  intro first second alike
  have left := (reads.embed text).through view first
  have right := (reads.embed text).through view second
  exact ⟨reads.embeds text first second, left.trans (alike.trans right.symm)⟩

omit reads in
/-- Actions that answer alike where the view shows the same may follow each other. -/
theorem agrees_composes : Composes fun _ action => Agrees (ShowsSame view store) id action action :=
  ⟨fun _ => Agrees.pure rfl, fun agrees each => agrees.bind_same each⟩

theorem agrees_find (collection : TextCollection) (query : Embedding) (limit : Nat) :
    Agrees (ShowsSame (Store.plainPartOf · memory.id) store) id
      (memory.index.search memory.id collection query limit)
      (memory.index.search memory.id collection query limit) := by
  rw [reads.index]
  exact agrees_query reads _ fun found =>
    found.search_plainPartOf memory.id collection query limit

theorem agrees_search (collection : TextCollection) (question : String) (limit : Nat) :
    Agrees (ShowsSame (Store.plainPartOf · memory.id) store) id
      (memory.search collection question limit) (memory.search collection question limit) :=
  RepositoryMemory.composes_search (agrees_composes _) (agrees_embed reads _) (agrees_find reads)
    collection question limit

theorem agrees_countTexts (collections : List TextCollection) :
    Agrees (ShowsSame (Store.plainPartOf · memory.id) store) id
      (memory.countTexts collections) (memory.countTexts collections) := by
  induction collections with
  | nil => exact Agrees.pure rfl
  | cons collection collections inductionHypothesis =>
    rw [RepositoryMemory.countTexts, reads.index]
    refine Agrees.bind_same (agrees_query reads _ fun found => ?_) fun _ =>
      Agrees.bind_same inductionHypothesis fun _ => Agrees.pure rfl
    exact congrArg (fun texts : List TextEntry => Except.ok texts.length)
      (found.textsOf_plainPartOf memory.id collection)

/-- The record of the repository and the numbers are told from the part, of whatever is loaded. -/
theorem agrees_stats :
    Agrees (ShowsSame (Store.plainPartOf · memory.id) store) id memory.stats memory.stats := by
  have opens : Agrees (ShowsSame (Store.plainPartOf · memory.id) store)
      (Except.map (Store.plainPartOf · memory.id)) (memory.look fun found => found)
      (memory.look fun found => found) := by
    intro first second alike
    rw [look_apply reads, look_apply reads]
    have left := reads.load.through (Store.plainPartOf · memory.id) first
    have right := reads.load.through (Store.plainPartOf · memory.id) second
    exact ⟨congrArg Except.ok alike, left.trans (alike.trans right.symm)⟩
  refine Agrees.bind opens fun one other same => ?_
  obtain ⟨failure, rfl, rfl⟩ | ⟨found, foundToo, rfl, rfl, alike⟩ := map_cases same
  · exact Agrees.pure rfl
  · refine Agrees.bind_same (agrees_countTexts reads _) fun counts => Agrees.pure ?_
    rw [← found.repository?_plainPartOf, ← foundToo.repository?_plainPartOf,
      ← found.driftsOf_plainPartOf, ← foundToo.driftsOf_plainPartOf,
      ← found.signaturesOf_plainPartOf, ← foundToo.signaturesOf_plainPartOf, alike]

theorem agrees_knownDrifts :
    Agrees (ShowsSame (Store.plainPartOf · memory.id) store) id memory.knownDrifts
      memory.knownDrifts :=
  agrees_look reads _ fun found => found.driftsOf_plainPartOf memory.id

theorem agrees_pastRuns (limit : Nat) :
    Agrees (ShowsSame (Store.plainPartOf · memory.id) store) id (memory.pastRuns limit)
      (memory.pastRuns limit) :=
  agrees_look reads _ fun found => congrArg (List.take limit) (found.runsOf_plainPartOf memory.id)

/-- Whatever is read besides documents is told from the part of the repository without documents. -/
theorem agrees_looking {Answer : Type} {look : StateM World (Except MemoryFailure Answer)}
    (looking : memory.Looking look) :
    Agrees (ShowsSame (Store.plainPartOf · memory.id) store) id look look := by
  cases looking with
  | pastRuns limit => exact agrees_pastRuns reads limit
  | knownDrifts => exact agrees_knownDrifts reads
  | signatures => exact agrees_look reads _ fun found => found.signaturesOf_plainPartOf memory.id
  | stats => exact agrees_stats reads
  | search collection question limit => exact agrees_search reads collection question limit
  | warnings changes =>
    exact RepositoryMemory.composes_proactiveWarnings (agrees_composes _) (agrees_embed reads _)
      (agrees_find reads) (agrees_knownDrifts reads) changes
  | context topic =>
    refine Agrees.bind_same (agrees_search reads _ _ _) fun rules => ?_
    cases rules with
    | error failure => exact Agrees.pure rfl
    | ok rules =>
      refine Agrees.bind_same (agrees_search reads _ _ _) fun documents => ?_
      cases documents with
      | error failure => exact Agrees.pure rfl
      | ok documents =>
        refine Agrees.bind_same (agrees_pastRuns reads _) fun runs => ?_
        cases runs <;> exact Agrees.pure rfl

/-- Documents are read from the part of the repository, which includes the reviews on them. -/
theorem agrees_documentLooking {Answer : Type} {look : StateM World (Except MemoryFailure Answer)}
    (looking : memory.DocumentLooking look) :
    Agrees (ShowsSame (Store.partOf · memory.id) store) id look look := by
  cases looking with
  | documents limit =>
    exact agrees_look reads _ fun found =>
      congrArg (List.take limit) (found.documentsOf_partOf memory.id)
  | latestApproved => exact agrees_look reads _ fun found => found.latestApproved?_partOf memory.id

end

/-! ### Two repositories -/

section
variable {first second : RepositoryMemory (StateM World)} {store : World → Store}

/-- What one repository records, another one in the same store does not read, and neither does it
read what could not be recorded. A review, though, reaches all documents of its session: the other
repository has it on its own documents of that session, but on none else, and nothing else changes
for it. -/
theorem reads_after_other (shares : first.Shares store) (reads : second.ReadsFrom store)
    (apart : first.id ≠ second.id) {Done : Type} {action : StateM World (Except MemoryFailure Done)}
    (world : World) :
    (first.Recording action → ∀ {Answer : Type} {look : StateM World (Except MemoryFailure Answer)},
      second.Looking look ∨ second.DocumentLooking look →
        (look (action world).2).1 = (look world).1) ∧
    ∀ {session status : String} {comment : Option String} {now : Int},
      first.Reviewing session status comment now action →
        (∀ {Answer : Type} {look : StateM World (Except MemoryFailure Answer)},
          second.Looking look → (look (action world).2).1 = (look world).1) ∧
        ((action world).1.toBool = false ∨
            (∀ document ∈ (store world).documents,
              document.repository = second.id → document.session ≠ session) →
          ∀ {Answer : Type} {look : StateM World (Except MemoryFailure Answer)},
            second.DocumentLooking look → (look (action world).2).1 = (look world).1) ∧
        ((action world).1.toBool = true →
          (store (action world).2).partOf second.id =
            ((store world).reviewSession session status comment now).partOf second.id) := by
  have plain : (store (action world).2).plainPartOf second.id =
      (store world).plainPartOf second.id →
      ∀ {Answer : Type} {look : StateM World (Except MemoryFailure Answer)},
        second.Looking look → (look (action world).2).1 = (look world).1 :=
    fun same _ _ looking => (agrees_looking reads looking _ _ same).1
  have documents : (store (action world).2).partOf second.id = (store world).partOf second.id →
      ∀ {Answer : Type} {look : StateM World (Except MemoryFailure Answer)},
        second.DocumentLooking look → (look (action world).2).1 = (look world).1 :=
    fun same _ _ looking => (agrees_documentLooking reads looking _ _ same).1
  have plainOf : ∀ {one other : Store}, one.partOf second.id = other.partOf second.id →
      one.plainPartOf second.id = other.plainPartOf second.id :=
    fun same => congrArg (fun part => { part with documents := [] }) same
  refine ⟨fun recording _ _ looking => ?_, fun {session status comment now} reviewing => ?_⟩
  · have same := (RepositoryMemory.does_leaves_part shares apart).recording (fun _ own => own)
      recording world
    exact looking.elim (plain (plainOf same)) (documents same)
  obtain ⟨done, becomes⟩ | ⟨fails, same⟩ :=
    RepositoryMemory.part_of_reviewing shares apart reviewing world
  · have reviewed : ((store world).reviewSession session status comment now).plainPartOf second.id =
        (store world).plainPartOf second.id :=
      (store world).plainPartOf_reviewSession session status comment now
    refine ⟨plain ((plainOf becomes).trans reviewed), ?_, fun _ => becomes⟩
    rintro (fails | none)
    · exact nomatch done.symm.trans fails
    · exact documents (becomes.trans
        ((store world).partOf_reviewSession session status comment now none))
  · exact ⟨plain (plainOf same), fun _ => documents same, fun done => nomatch done.symm.trans fails⟩

end

theorem readsFrom_ofStore (id : String) :
    (RepositoryMemory.ofStore id).ReadsFrom fun store => store where
  load _ := rfl
  loaded _ := rfl
  index := rfl
  embed _ := Leaves.pure _
  embeds _ _ _ := rfl

/-- A document of a session, with a text that is not approved yet. -/
def draftRequest (session : String) : DocumentRequest :=
  ⟨session, none, none, some "# Draft"⟩

/-- The store after the repository "second" recorded a document of the session "s". -/
def secondRecorded : Store :=
  ((RepositoryMemory.ofStore "second").recordDocument (draftRequest "s") 1 .empty).2

/-- Another repository may record a document of a session with the same name. When it rejects the
documents of its own session, the second repository has the review on its document too, but counts
as much as before. -/
theorem secondReads_recorded :
    let first := RepositoryMemory.ofStore "first"
    let second := RepositoryMemory.ofStore "second"
    let recorded := (first.recordDocument (draftRequest "s") 2 secondRecorded).2
    let rejected := (first.reviewDocuments "s" "rejected" none 2 secondRecorded).2
    first.id ≠ second.id ∧
      (second.documents 5 recorded).1 = (second.documents 5 secondRecorded).1 ∧
      (second.stats rejected).1 = (second.stats secondRecorded).1 ∧
      rejected.partOf second.id =
        (secondRecorded.reviewSession "s" "rejected" none 2).partOf second.id := by
  intro first second recorded rejected
  have apart : first.id ≠ second.id := by decide
  have shares := RepositoryMemory.shares_ofStore "first"
  have reads := readsFrom_ofStore "second"
  have recording : first.Recording (first.recordDocument (draftRequest "s") 2) := .document _ _
  have reviewing : first.Reviewing "s" "rejected" none 2
      (first.reviewDocuments "s" "rejected" none 2) :=
    .review "rejected" none 2
  obtain ⟨plain, -, reached⟩ := (reads_after_other shares reads apart secondRecorded).2 reviewing
  exact ⟨apart, (reads_after_other shares reads apart secondRecorded).1 recording
    (Or.inr (.documents 5)), plain .stats, reached rfl⟩

/-- When it rejects the documents of its session, the second repository reads that its own document
is rejected. -/
theorem secondReads_rejected :
    "first" ≠ "second" ∧
      ((RepositoryMemory.ofStore "second").documents 5
          ((RepositoryMemory.ofStore "first").reviewDocuments "s" "rejected" none 2
            secondRecorded).2).1 ≠
        ((RepositoryMemory.ofStore "second").documents 5 secondRecorded).1 := by
  refine ⟨by decide, fun same => ?_⟩
  have statuses := congrArg
    (fun answer => answer.toOption.map (List.map DocumentRecord.approvalStatus)) same
  exact absurd statuses (by decide +kernel)

end MigrationGuard
