/-
This file follows what clients write to a store that they share. Their writes come
in any order, and each one is accepted or fails. The records of the repositories
are told from the accepted writes alone: they are the accepted registrations,
gathered by repository. So a repository was first seen when it was registered
first, last seen at the latest time of a registration, and its runs are counted
when they are added, never when they are refused. Every record but texts and
reviews registers its repository, so nothing is ever mentioned that has no record.
What one accepted write does to the registrations, the rows that mention
repositories and the counts is said once, and that the records agree with the
writes is kept by each of these cases; the rest is an induction over the history.
-/

import MigrationGuard.Proofs.Memory.Writes

namespace MigrationGuard

variable {World Client : Type}

/-! ### Registrations -/

namespace StoreWrite

/-- The repository that a write registers, and when, as the record that it would make of a new one.
-/
def registration? : StoreWrite → Option RepositoryRecord
  | .touch id path now => some (.once id path now)
  | .run path record => some (.once record.repository path record.ranAt)
  | .drift path record => some (.once record.repository path record.lastSeen)
  | .signature path record => some (.once record.repository path record.lastSeen)
  | .document path record => some (.once record.repository path record.ranAt)
  | .review .. => none
  | .texts .. => none

/-- The times at which writes registered a repository, in their order. -/
def timesOf (id : String) (writes : List StoreWrite) : List Int :=
  (Keyed.withKey RepositoryRecord.id id (writes.filterMap registration?)).map
    RepositoryRecord.lastSeen

end StoreWrite

/-- What happens to a store that clients share, with the writes that were accepted so far. A client
writes or looks when it likes, and in between all may happen that leaves the store alone. -/
inductive ClientHistory (client : Client → Database (StateM World)) (store : World → Store) :
    World → List StoreWrite → Prop where
  /-- The store is empty at first. -/
  | begins {world : World} (empty : store world = .empty) : ClientHistory client store world []
  /-- Something else happens. -/
  | passes {world later : World} {accepted : List StoreWrite}
    (history : ClientHistory client store world accepted) (same : store later = store world) :
    ClientHistory client store later accepted
  /-- A client looks something up. -/
  | looks {world : World} {accepted : List StoreWrite} {Result : Type} (one : Client)
    (look : Store → Except StoreFailure Result)
    (history : ClientHistory client store world accepted) :
    ClientHistory client store ((client one).query look world).2 accepted
  /-- A write of a client is accepted. -/
  | succeeds {world later : World} {accepted : List StoreWrite} {answer : StoreAnswer}
    (one : Client) (write : StoreWrite) (history : ClientHistory client store world accepted)
    (done : write.perform (client one) world = (.ok answer, later)) :
    ClientHistory client store later (accepted ++ [write])
  /-- A write of a client fails. -/
  | fails {world later : World} {accepted : List StoreWrite} {failure : StoreFailure} (one : Client)
    (write : StoreWrite) (history : ClientHistory client store world accepted)
    (failed : write.perform (client one) world = (.error failure, later)) :
    ClientHistory client store later accepted

namespace Store

/-! ### The registry of a store -/

/-- The repositories that records other than texts are about, each as often as it is mentioned. -/
def mentioned (store : Store) : List String :=
  store.runs.map RunRecord.repository ++ store.drifts.map DriftRecord.repository ++
    store.signatures.map SignatureRecord.repository ++
    store.documents.map DocumentRecord.repository

/-- The records of the repositories are in agreement with the other records and with the writes that
were accepted. -/
structure Accounts (store : Store) (accepted : List StoreWrite) : Prop where
  /-- A repository has one record. -/
  single : (store.repositories.map RepositoryRecord.id).Nodup
  /-- Every repository that is mentioned has a record. -/
  registered : ∀ id ∈ store.mentioned, ∃ record ∈ store.repositories, record.id = id
  /-- The runs of a repository are counted. -/
  counted : ∀ record ∈ store.repositories,
    record.runCount = store.runs.countP fun run => run.repository == record.id
  /-- A repository was first seen when it was registered first. -/
  first : ∀ id, (store.repository? id).map RepositoryRecord.firstSeen =
    (StoreWrite.timesOf id accepted).head?
  /-- It was last seen at the latest time at which it was registered. -/
  last : ∀ id, (store.repository? id).map RepositoryRecord.lastSeen =
    (StoreWrite.timesOf id accepted).max?
  /-- It was not seen before it was first seen. -/
  ordered : ∀ record ∈ store.repositories, record.firstSeen ≤ record.lastSeen

end Store

/-- The record without its count, which is told from the runs and not from registrations. -/
def RepositoryRecord.uncounted (record : RepositoryRecord) : RepositoryRecord :=
  { record with runCount := 0 }

/-- What one step keeps: the records are the gathered registrations, apart from counts, which are
those of the runs. -/
structure Store.Registers (store : Store) (accepted : List StoreWrite) : Prop where
  /-- The registrations are gathered by repository. -/
  gathered : store.repositories.map RepositoryRecord.uncounted =
    Keyed.gather RepositoryRecord.id RepositoryRecord.refresh
      (accepted.filterMap StoreWrite.registration?)
  /-- What is mentioned is registered. -/
  known : ∀ id ∈ store.mentioned, id ∈ store.repositories.map RepositoryRecord.id
  /-- The counts are those of the runs. -/
  counted : ∀ record ∈ store.repositories,
    record.runCount = store.runs.countP fun run => run.repository == record.id

/-! ### One write -/

theorem Store.mem_mentioned {store : Store} {id : String} :
    id ∈ store.mentioned ↔ id ∈ store.runs.map RunRecord.repository ∨
      id ∈ store.drifts.map DriftRecord.repository ∨
      id ∈ store.signatures.map SignatureRecord.repository ∨
      id ∈ store.documents.map DocumentRecord.repository := by
  simp only [mentioned, List.mem_append, or_assoc]

/-- What an accepted write does to the records of the repositories: nothing, or it registers one,
or it registers the repository of a run and counts the run. -/
theorem StoreWrite.after_cases (write : StoreWrite) (store : Store) :
    (write.registration? = none ∧ (write.after store).repositories = store.repositories ∧
        (write.after store).runs = store.runs ∧
        ∀ id ∈ (write.after store).mentioned, id ∈ store.mentioned) ∨
      (∃ id path now, write.registration? = some (.once id path now) ∧
        (write.after store).repositories = (store.touch id path now).repositories ∧
        (write.after store).runs = store.runs ∧
        ∀ other ∈ (write.after store).mentioned, other ∈ store.mentioned ∨ other = id) ∨
      ∃ path record, write = .run path record := by
  cases write with
  | touch id path now => exact Or.inr (Or.inl ⟨id, path, now, rfl, rfl, rfl, fun _ => Or.inl⟩)
  | run path record => exact Or.inr (Or.inr ⟨path, record, rfl⟩)
  | drift path record =>
    refine Or.inr (Or.inl ⟨record.repository, path, record.lastSeen, rfl, rfl, rfl, ?_⟩)
    intro other member
    rw [after, Store.mem_mentioned, store.drifts_recordDrift] at member
    rw [Store.mem_mentioned]
    obtain inRuns | inDrifts | inOthers := member
    · exact Or.inl (Or.inl inRuns)
    · obtain before | new := Keyed.mem_map_merge DriftRecord.key_recur
        (fun _ _ same => congrArg Prod.fst same) inDrifts
      · exact Or.inl (Or.inr (Or.inl before))
      · exact Or.inr new
    · exact Or.inl (Or.inr (Or.inr inOthers))
  | signature path record =>
    refine Or.inr (Or.inl ⟨record.repository, path, record.lastSeen, rfl, rfl, rfl, ?_⟩)
    intro other member
    rw [after, Store.mem_mentioned, store.signatures_recordSignature] at member
    rw [Store.mem_mentioned]
    obtain inRuns | inDrifts | inSignatures | inDocuments := member
    · exact Or.inl (Or.inl inRuns)
    · exact Or.inl (Or.inr (Or.inl inDrifts))
    · obtain before | new := Keyed.mem_map_merge SignatureRecord.key_renew
        (fun _ _ same => congrArg Prod.fst same) inSignatures
      · exact Or.inl (Or.inr (Or.inr (Or.inl before)))
      · exact Or.inr new
    · exact Or.inl (Or.inr (Or.inr (Or.inr inDocuments)))
  | document path record =>
    refine Or.inr (Or.inl ⟨record.repository, path, record.ranAt, rfl, rfl, rfl, ?_⟩)
    intro other member
    rw [after, Store.mem_mentioned, Store.withDocument, List.map_append, List.mem_append] at member
    rw [Store.mem_mentioned]
    obtain inRuns | inDrifts | inSignatures | before | new := member
    · exact Or.inl (Or.inl inRuns)
    · exact Or.inl (Or.inr (Or.inl inDrifts))
    · exact Or.inl (Or.inr (Or.inr (Or.inl inSignatures)))
    · exact Or.inl (Or.inr (Or.inr (Or.inr before)))
    · exact Or.inr (List.mem_singleton.mp new)
  | review session status comment now =>
    have repositories : (store.reviewSession session status comment now).documents.map
        DocumentRecord.repository = store.documents.map DocumentRecord.repository := by
      refine List.map_map.trans (List.map_congr_left fun row _ => ?_)
      rw [Function.comp_apply, apply_ite DocumentRecord.repository, ite_self]
    refine Or.inl ⟨rfl, rfl, rfl, fun id member => ?_⟩
    rw [after, Store.mem_mentioned, repositories] at member
    exact Store.mem_mentioned.mpr member
  | texts repository collection entries =>
    refine Or.inl ⟨rfl, ?_, ?_, fun id member => ?_⟩
    · exact store.seen_putTexts Store.repositories (fun _ _ => rfl) repository collection entries
    · exact store.seen_putTexts Store.runs (fun _ _ => rfl) repository collection entries
    · rw [after, store.seen_putTexts Store.mentioned (fun _ _ => rfl)] at member
      exact member

namespace Store.Registers

variable {store next : Store} {accepted : List StoreWrite}

/-- Where the records and the runs are the same, nothing else counts, such as texts or reviews. -/
theorem of_same (registers : store.Registers accepted)
    (rows : next.repositories = store.repositories) (runs : next.runs = store.runs)
    (known : ∀ id ∈ next.mentioned, id ∈ store.repositories.map RepositoryRecord.id) :
    next.Registers accepted where
  gathered := rows ▸ registers.gathered
  known := rows ▸ known
  counted := rows ▸ runs ▸ registers.counted

theorem of_touch (registers : store.Registers accepted) {write : StoreWrite} {id path : String}
    {now : Int} (registration : write.registration? = some (.once id path now)) :
    (store.touch id path now).Registers (accepted ++ [write]) where
  gathered := by
    have touched : (store.touch id path now).repositories.map RepositoryRecord.uncounted =
        Keyed.merge RepositoryRecord.id RepositoryRecord.refresh
          (store.repositories.map RepositoryRecord.uncounted) (.once id path now) := by
      have forgets : ∀ first later : RepositoryRecord,
          (first.refresh later).uncounted = first.uncounted.refresh later.uncounted :=
        fun _ _ => rfl
      rw [repositories_touch]
      exact Keyed.map_merge RepositoryRecord.uncounted (fun _ => rfl) forgets _ _
    rw [touched, registers.gathered, List.filterMap_append, List.filterMap_cons_some registration,
      List.filterMap_nil, Keyed.gather_append_singleton]
  known other member := by
    rw [repositories_touch, Keyed.mem_keys_merge RepositoryRecord.id_refresh]
    exact Or.inl (registers.known other member)
  counted record member := by
    rw [repositories_touch] at member
    obtain ⟨first, before, rfl | rfl⟩ | ⟨rfl, fresh⟩ := Keyed.mem_merge_cases member
    · exact registers.counted record before
    · exact registers.counted first before
    · -- No run is about a repository that was not registered.
      refine (List.countP_eq_zero.mpr fun run among same => fresh ?_).symm
      refine registers.known _ (mem_mentioned.mpr (Or.inl ?_))
      exact List.mem_map.mpr ⟨run, among, eq_of_beq same⟩

theorem of_run (registers : store.Registers accepted) (path : String) (record : RunRecord) :
    (store.withRun path record).Registers (accepted ++ [.run path record]) := by
  have touched : (store.touch record.repository path record.ranAt).Registers
      (accepted ++ [.run path record]) :=
    registers.of_touch rfl
  have ids : (store.withRun path record).repositories.map RepositoryRecord.id =
      (store.touch record.repository path record.ranAt).repositories.map RepositoryRecord.id := by
    refine List.map_map.trans (List.map_congr_left fun row _ => ?_)
    rw [Function.comp_apply, apply_ite RepositoryRecord.id, ite_self]
  refine ⟨?_, fun id member => ?_, fun counted member => ?_⟩
  · rw [← touched.gathered]
    refine List.map_map.trans (List.map_congr_left fun row _ => ?_)
    rw [Function.comp_apply, apply_ite RepositoryRecord.uncounted]
    exact ite_self _
  · rw [ids]
    rw [mem_mentioned, Store.withRun, List.map_append, List.mem_append] at member
    obtain (before | new) | others := member
    · exact touched.known id (mem_mentioned.mpr (Or.inl before))
    · rw [List.mem_singleton.mp new, repositories_touch,
        Keyed.mem_keys_merge RepositoryRecord.id_refresh]
      exact Or.inr rfl
    · exact touched.known id (mem_mentioned.mpr (Or.inr others))
  · obtain ⟨row, among, rfl⟩ := List.mem_map.mp member
    have before : row.runCount = store.runs.countP fun run => run.repository == row.id :=
      touched.counted row among
    have runs : ∀ id, (store.withRun path record).runs.countP (fun run => run.repository == id) =
        store.runs.countP (fun run => run.repository == id) +
          if record.repository = id then 1 else 0 := by
      intro id
      rw [Store.withRun, List.countP_append, List.countP_singleton]
      simp only [beq_iff_eq]
    rw [runs]
    by_cases same : row.id = record.repository
    · rw [if_pos same, if_pos same.symm, ← before]
    · rw [if_neg same, if_neg (Ne.symm same), ← before, Nat.add_zero]

/-- Every accepted write keeps the records in agreement, whichever repository it is about. -/
theorem after (registers : store.Registers accepted) (write : StoreWrite) :
    (write.after store).Registers (accepted ++ [write]) := by
  obtain ⟨none, rows, runs, mentioned⟩ | ⟨id, path, now, registration, rows, runs, mentioned⟩ |
    ⟨path, record, rfl⟩ := write.after_cases store
  · -- A write that registers nothing leaves the registrations as they are.
    have same : (accepted ++ [write]).filterMap StoreWrite.registration? =
        accepted.filterMap StoreWrite.registration? := by
      rw [List.filterMap_append, List.filterMap_cons_none none, List.filterMap_nil, List.append_nil]
    have registersToo : store.Registers (accepted ++ [write]) :=
      ⟨same ▸ registers.gathered, registers.known, registers.counted⟩
    exact registersToo.of_same rows runs fun id member => registers.known id (mentioned id member)
  · have touched : (store.touch id path now).Registers (accepted ++ [write]) :=
      registers.of_touch registration
    refine touched.of_same rows runs fun other member => ?_
    obtain before | rfl := mentioned other member
    · exact touched.known other before
    · rw [repositories_touch, Keyed.mem_keys_merge RepositoryRecord.id_refresh]
      exact Or.inr rfl
  · exact registers.of_run path record

end Store.Registers

/-! ### What the records tell -/

/-- Registrations that are taken together keep the first time, even if a later one tells an earlier
time. -/
theorem RepositoryRecord.firstSeen_absorbed (records : List RepositoryRecord) :
    (Keyed.absorbed? refresh records).map firstSeen = (records.map firstSeen).head? := by
  cases records with
  | nil => rfl
  | cons first rest =>
    have kept : ∀ first : RepositoryRecord,
        (rest.foldl refresh first).firstSeen = first.firstSeen := by
      induction rest with
      | nil => exact fun _ => rfl
      | cons later rest inductionHypothesis =>
        exact fun first => inductionHypothesis (first.refresh later)
    exact congrArg some (kept first)

/-- Registrations that are taken together have the latest time, in whichever order they come. -/
theorem RepositoryRecord.lastSeen_absorbed (records : List RepositoryRecord) :
    (Keyed.absorbed? refresh records).map lastSeen = (records.map lastSeen).max? := by
  cases records with
  | nil => rfl
  | cons first rest =>
    rw [List.map_cons, List.max?_cons', List.foldl_map]
    exact congrArg some (List.foldl_hom lastSeen fun _ _ => rfl).symm

/-- A registration is seen once, so both of its times are the same. -/
theorem StoreWrite.firstSeen_of_registration {write : StoreWrite} {record : RepositoryRecord}
    (registers : write.registration? = some record) : record.firstSeen = record.lastSeen := by
  cases write with
  | review | texts => exact nomatch registers
  | _ =>
    obtain rfl := Option.some.inj registers
    rfl

namespace Store.Registers

variable {store : Store} {accepted : List StoreWrite} (registers : store.Registers accepted)
include registers

/-- The record of a repository is made of its registrations, in the order in which they were
accepted. -/
theorem found (id : String) :
    (store.repository? id).map RepositoryRecord.uncounted =
      Keyed.absorbed? RepositoryRecord.refresh (Keyed.withKey RepositoryRecord.id id
        (accepted.filterMap StoreWrite.registration?)) := by
  rw [← Keyed.find_gather RepositoryRecord.id_refresh, ← registers.gathered, List.find?_map]
  simp only [repository?, beq_eq_decide]
  rfl

theorem single : (store.repositories.map RepositoryRecord.id).Nodup := by
  have distinct := Keyed.nodup_keys_gather RepositoryRecord.id_refresh
    (accepted.filterMap StoreWrite.registration?)
  rw [← registers.gathered, List.map_map] at distinct
  exact distinct

theorem first (id : String) :
    (store.repository? id).map RepositoryRecord.firstSeen =
      (StoreWrite.timesOf id accepted).head? := by
  have times : (Keyed.withKey RepositoryRecord.id id
      (accepted.filterMap StoreWrite.registration?)).map RepositoryRecord.firstSeen =
      StoreWrite.timesOf id accepted := by
    refine List.map_congr_left fun record member => ?_
    obtain ⟨write, -, registered⟩ := List.mem_filterMap.mp (List.mem_filter.mp member).1
    exact StoreWrite.firstSeen_of_registration registered
  rw [← times, ← RepositoryRecord.firstSeen_absorbed, ← registers.found, Option.map_map]
  rfl

theorem last (id : String) :
    (store.repository? id).map RepositoryRecord.lastSeen =
      (StoreWrite.timesOf id accepted).max? := by
  rw [StoreWrite.timesOf, ← RepositoryRecord.lastSeen_absorbed, ← registers.found, Option.map_map]
  rfl

theorem ordered {record : RepositoryRecord} (member : record ∈ store.repositories) :
    record.firstSeen ≤ record.lastSeen := by
  have isFound : store.repository? record.id = some record := by
    simp only [repository?, beq_eq_decide]
    exact Keyed.find_of_mem registers.single member
  have first := registers.first record.id
  have last := registers.last record.id
  rw [isFound] at first last
  exact (List.max?_eq_some_iff.mp last.symm).2 _ (List.mem_of_head? first.symm)

theorem accounts : store.Accounts accepted where
  single := registers.single
  registered _ member := List.mem_map.mp (registers.known _ member)
  counted := registers.counted
  first := registers.first
  last := registers.last
  ordered _ := registers.ordered

end Store.Registers

namespace ClientHistory

variable {client : Client → Database (StateM World)} {store : World → Store}
  (holds : ∀ one, (client one).Holds store)
include holds

/-- Looking something up changes nothing, whatever is looked for. -/
theorem store_of_query {Result : Type} (one : Client) (look : Store → Except StoreFailure Result)
    (world : World) : store ((client one).query look world).2 = store world :=
  Database.leaves_query (holds one).load look world

/-- The records agree at every point of a history, also after writes that failed. -/
theorem registers {world : World} {accepted : List StoreWrite}
    (history : ClientHistory client store world accepted) : (store world).Registers accepted := by
  induction history with
  | begins empty =>
    rw [empty]
    exact ⟨rfl, fun _ member => (nomatch member), fun _ member => (nomatch member)⟩
  | passes _ same inductionHypothesis => exact same ▸ inductionHypothesis
  | looks one look _ inductionHypothesis =>
    exact (store_of_query holds one look _).symm ▸ inductionHypothesis
  | succeeds one write _ done inductionHypothesis =>
    rw [StoreWrite.eq_after ((holds one).accepted_of_done done)]
    exact inductionHypothesis.after write
  | fails one write _ failed inductionHypothesis =>
    exact (holds one).store_of_failed failed ▸ inductionHypothesis

end ClientHistory

end MigrationGuard
