/-
This file reads the tables of a store as lists whose rows are told apart by a key.
A write merges a row into each table that it is about: the row with the same key
absorbs it, and where there is none it goes to the end. Runs and documents are the
exception, they are only ever added. For each table there is the key, what a later
row changes in the first one, and the row that a single write makes, and each
write of the store is shown to be a merge of such a row. What holds of gathered
rows in general can then be said of repositories, drifts, signatures and texts,
with no further look at how the store searches its tables. A write to one table
leaves the others alone, apart from the record of the repository.
-/

import MigrationGuard.Proofs.Keyed
import MigrationGuard.Proofs.Memory.Untimed

namespace MigrationGuard

/-! ### Keys -/

/-- What a later record of a repository changes in the first one: the path and the time when the
repository was last seen. -/
def RepositoryRecord.refresh (first later : RepositoryRecord) : RepositoryRecord :=
  { first with path := later.path, lastSeen := max first.lastSeen later.lastSeen }

/-- A record of a repository that was written about once, with no run counted yet. -/
def RepositoryRecord.once (id path : String) (now : Int) : RepositoryRecord :=
  ⟨id, path, now, now, 0⟩

/-- What tells drifts apart: repository, function and description. Severity and outputs do not. -/
def DriftRecord.key (drift : DriftRecord) : String × String × String :=
  (drift.repository, drift.function, drift.description)

/-- What a later record of a drift changes in the first one: all but the time when it was seen
first, and the count goes up. -/
def DriftRecord.recur (first later : DriftRecord) : DriftRecord :=
  { first with
    severity := later.severity
    beforeOutput := later.beforeOutput
    afterOutput := later.afterOutput
    lastSeen := later.lastSeen
    timesSeen := first.timesSeen + 1 }

/-- The record of a drift that was recorded once, first and last at the same time. -/
def DriftRecord.once (drift : DriftRecord) : DriftRecord :=
  { drift with firstSeen := drift.lastSeen, timesSeen := 1 }

/-- What tells signatures apart: repository and function. Signatures of one function replace each
other. -/
def SignatureRecord.key (signature : SignatureRecord) : String × String :=
  (signature.repository, signature.function)

/-- A later signature takes the place of the first one, with its own fingerprint and time. -/
def SignatureRecord.renew (first later : SignatureRecord) : SignatureRecord :=
  { later with repository := first.repository, function := first.function }

/-- What tells texts apart: repository, collection and identity. One identity may occur in several
collections. -/
def StoredText.key (text : StoredText) : String × TextCollection × String :=
  (text.repository, text.collection, text.entry.id)

/-- A later text takes the place of the first one, with its own embedding and metadata. -/
def StoredText.renew (first later : StoredText) : StoredText :=
  ⟨first.repository, first.collection, { later.entry with id := first.entry.id }⟩

theorem RepositoryRecord.id_refresh (first later : RepositoryRecord) :
    (first.refresh later).id = first.id :=
  rfl

theorem DriftRecord.key_recur (first later : DriftRecord) : (first.recur later).key = first.key :=
  rfl

theorem SignatureRecord.key_renew (first later : SignatureRecord) :
    (first.renew later).key = first.key :=
  rfl

theorem StoredText.key_renew (first later : StoredText) : (first.renew later).key = first.key :=
  rfl

namespace Store

/-! ### Documents -/

/-- The store with a document added and its repository registered. -/
def withDocument (store : Store) (path : String) (document : DocumentRecord) : Store :=
  { store.touch document.repository path document.ranAt with
    documents := store.documents ++ [{ document with
      qualityScore := document.qualityScore.map keptNumber }] }

/-- A document is recorded unless one with its identity is there. It never replaces another one. -/
theorem recordDocument_eq (store : Store) (path : String) (document : DocumentRecord) :
    store.recordDocument path document =
      if store.documents.any fun row => row.id == document.id then
        .error (.duplicate "doc_runs.doc_run_id")
      else .ok (store.withDocument path document) :=
  rfl

/-! ### Writes as merges -/

theorem upsert_eq_merge {Row Key : Type} [DecidableEq Key] {key : Row → Key}
    {absorb : Row → Row → Row} {isIt : Row → Bool} {change : Row → Row} {new : Row}
    (meant : ∀ row, isIt row = decide (key row = key new))
    (changed : ∀ row, key row = key new → change row = absorb row new) (rows : List Row) :
    upsert isIt change new rows = Keyed.merge key absorb rows new := by
  induction rows with
  | nil => rfl
  | cons row rows inductionHypothesis =>
    rw [upsert, Keyed.merge, meant, inductionHypothesis]
    by_cases same : key row = key new
    · rw [if_pos (decide_eq_true same), if_pos same, changed row same]
    · rw [if_neg (ne_true_of_eq_false (decide_eq_false same)), if_neg same]

theorem repositories_touch (store : Store) (id path : String) (now : Int) :
    (store.touch id path now).repositories =
      Keyed.merge RepositoryRecord.id RepositoryRecord.refresh store.repositories
        (.once id path now) := by
  have meant : ∀ row : RepositoryRecord,
      (row.id == id) = decide (row.id = (RepositoryRecord.once id path now).id) :=
    fun row => beq_eq_decide row.id id
  have changed : ∀ row : RepositoryRecord, row.id = (RepositoryRecord.once id path now).id →
      { row with path, lastSeen := max row.lastSeen now } = row.refresh (.once id path now) :=
    fun _ _ => rfl
  exact upsert_eq_merge meant changed store.repositories

theorem sameDrift_eq (drift row : DriftRecord) :
    sameDrift drift row = decide (row.key = drift.key) := by
  simp only [sameDrift, DriftRecord.key, Prod.mk.injEq, Bool.decide_and, beq_eq_decide,
    Bool.and_assoc]

theorem drifts_recordDrift (store : Store) (path : String) (drift : DriftRecord) :
    (store.recordDrift path drift).drifts =
      Keyed.merge DriftRecord.key DriftRecord.recur store.drifts drift.once := by
  have meant : ∀ row, sameDrift drift row = decide (row.key = drift.once.key) := sameDrift_eq drift
  refine upsert_eq_merge meant (fun row same => ?_) _
  obtain ⟨sameRepository, sameFunction, sameDescription⟩ :
      row.repository = drift.repository ∧ row.function = drift.function ∧
        row.description = drift.description := by
    simpa only [DriftRecord.key, DriftRecord.once, Prod.mk.injEq] using same
  simp only [DriftRecord.recur, DriftRecord.once, sameRepository, sameFunction, sameDescription]

theorem sameFunction_eq (signature row : SignatureRecord) :
    sameFunction signature row = decide (row.key = signature.key) := by
  simp only [sameFunction, SignatureRecord.key, Prod.mk.injEq, Bool.decide_and, beq_eq_decide]

theorem signatures_recordSignature (store : Store) (path : String) (signature : SignatureRecord) :
    (store.recordSignature path signature).signatures =
      Keyed.merge SignatureRecord.key SignatureRecord.renew store.signatures signature := by
  refine upsert_eq_merge (sameFunction_eq signature) (fun row same => ?_) _
  obtain ⟨sameRepository, sameFunction⟩ := Prod.mk.inj same
  simp only [SignatureRecord.renew, sameRepository, sameFunction]

theorem texts_putText (store : Store) (repository : String) (collection : TextCollection)
    (entry : TextEntry) :
    (store.putText repository collection entry).texts =
      Keyed.merge StoredText.key StoredText.renew store.texts ⟨repository, collection, entry⟩ := by
  refine upsert_eq_merge (fun row => ?_) (fun row same => ?_) _
  · simp only [sameText, StoredText.key, Prod.mk.injEq, Bool.decide_and, beq_eq_decide,
      Bool.and_assoc]
  · obtain ⟨sameRepository, sameCollection, sameId⟩ :
        row.repository = repository ∧ row.collection = collection ∧ row.entry.id = entry.id := by
      simpa only [StoredText.key, Prod.mk.injEq] using same
    simp only [StoredText.renew, sameRepository, sameCollection, sameId]

/-- What is seen without the texts stays the same when texts are put into the store. -/
theorem seen_putTexts {Seen : Type} (store : Store) (view : Store → Seen)
    (kept : ∀ (store : Store) texts, view { store with texts } = view store) (repository : String)
    (collection : TextCollection) (entries : List TextEntry) :
    view (store.putTexts repository collection entries) = view store := by
  induction entries generalizing store with
  | nil => rfl
  | cons entry entries inductionHypothesis =>
    exact (inductionHypothesis (store.putText repository collection entry)).trans (kept store _)

end Store

end MigrationGuard
