/-
This file keeps records in a store and looks them up. Every write about a
repository registers it first. A write that is refused leaves the store as it was.
Recorded order is the order of the lists, so the newest record stands last, and
lists that are shown sort the records by their times and keep that order among
equals. A search compares a vector with all vectors of a collection; these are
read for it one by one, and the first that cannot be read ends it with what its
reader says.
-/

import MigrationGuard.Files.Tree
import MigrationGuard.Memory.Embedding

namespace MigrationGuard

open Data

/-! ### Stores -/

/-- All records of all repositories, in the order in which they were added. -/
structure Store where
  repositories : List RepositoryRecord
  runs : List RunRecord
  /-- The drifts, one record for each repository, function and description. -/
  drifts : List DriftRecord
  /-- The signatures, one record for each repository and function. -/
  signatures : List SignatureRecord
  documents : List DocumentRecord
  /-- The texts, one for each repository, collection and identity. -/
  texts : List StoredText
  deriving Repr

namespace Store

/-- The store without records, which a new file holds. -/
def empty : Store := ⟨[], [], [], [], [], []⟩

instance : Inhabited Store := ⟨empty⟩

end Store

instance : ToValue Store where
  toValue store := .record [("repos", toValue store.repositories), ("runs", toValue store.runs),
    ("drifts", toValue store.drifts), ("signatures", toValue store.signatures),
    ("documents", toValue store.documents), ("texts", toValue store.texts)]

instance : OfValue Store where
  ofValue? value := do
    match ← value.slots? ["repos", "runs", "drifts", "signatures", "documents", "texts"] with
    | [repositories, runs, drifts, signatures, documents, texts] =>
      return ⟨← repositories.required, ← runs.required, ← drifts.required, ← signatures.required,
        ← documents.required, ← texts.required⟩
    | _ => none

/-! ### Failures -/

/-- Why the store cannot do what it is asked for. -/
inductive StoreFailure where
  /-- A file operation failed. -/
  | files (failure : FileFailure)
  /-- A record with this identity is there already. The column is the one that has to be unique. -/
  | duplicate (column : String)
  /-- The file holds something else than a store. -/
  | notADatabase
  | cannotOpen (path : String)
  /-- A kept vector holds something else than numbers, as its reader says. -/
  | unreadableVector (mismatch : Json.Mismatch)
  deriving DecidableEq, Repr

/-- The failure in words, each kind with the words of the layer that it comes from. -/
def StoreFailure.message : StoreFailure → String
  | .files failure => "io error: " ++ failure.message
  | .duplicate column => "sqlite error: UNIQUE constraint failed: " ++ column
  | .notADatabase => "sqlite error: file is not a database"
  | .cannotOpen path => "sqlite error: unable to open database file: " ++ path
  | .unreadableVector mismatch => "json error: " ++ mismatch.message

namespace Store

/-! ### Writing -/

/-- The rows with one of them changed, or a new one at the end where none passes the test. -/
def upsert {Row : Type} (isIt : Row → Bool) (change : Row → Row) (new : Row) : List Row → List Row
  | [] => [new]
  | row :: rows =>
    if isIt row then change row :: rows else row :: upsert isIt change new rows

/-- Registers a repository or refreshes the path and the time when it was last seen. -/
def touch (store : Store) (id path : String) (now : Int) : Store :=
  { store with
    repositories := upsert (fun row => row.id == id)
      (fun row => { row with path, lastSeen := max row.lastSeen now })
      ⟨id, path, now, now, 0⟩ store.repositories }

/-- A number as it is kept: zero has no sign, as a database does not keep it. -/
def keptNumber (number : Float) : Float :=
  if number == 0.0 then 0.0 else number

/-- Adds a run and counts it. A run whose identity is taken is refused. -/
def recordRun (store : Store) (path : String) (run : RunRecord) : Except StoreFailure Store :=
  if store.runs.any fun row => row.id == run.id then .error (.duplicate "pipeline_runs.run_id")
  else
    let touched := store.touch run.repository path run.ranAt
    let kept := { run with
      preservationPct := run.preservationPct.map keptNumber
      riskScore := run.riskScore.map keptNumber }
    .ok { touched with
      repositories := touched.repositories.map fun row =>
        if row.id = run.repository then { row with runCount := row.runCount + 1 } else row
      runs := store.runs ++ [kept] }

/-- The row is about the same drift: the same function of the same repository and the same
description. -/
def sameDrift (drift row : DriftRecord) : Bool :=
  row.repository == drift.repository && row.function == drift.function &&
    row.description == drift.description

/-- Records one occurrence of a drift. Only the time of the first one stays. -/
def recordDrift (store : Store) (path : String) (drift : DriftRecord) : Store :=
  let touched := store.touch drift.repository path drift.lastSeen
  { touched with
    drifts := upsert (sameDrift drift)
      (fun row => { drift with firstSeen := row.firstSeen, timesSeen := row.timesSeen + 1 })
      { drift with firstSeen := drift.lastSeen, timesSeen := 1 } store.drifts }

/-- How often a drift was recorded, which is never if there is no record of it. -/
def timesSeen (store : Store) (drift : DriftRecord) : Int :=
  ((store.drifts.find? (sameDrift drift)).map DriftRecord.timesSeen).getD 0

/-- The row is about the same function of the same repository. -/
def sameFunction (signature row : SignatureRecord) : Bool :=
  row.repository == signature.repository && row.function == signature.function

/-- The record of the same function, if it was recorded before. -/
def previousSignature? (store : Store) (signature : SignatureRecord) : Option SignatureRecord :=
  store.signatures.find? (sameFunction signature)

/-- Records a signature in place of the one before. No other record changes. -/
def recordSignature (store : Store) (path : String) (signature : SignatureRecord) : Store :=
  let touched := store.touch signature.repository path signature.lastSeen
  { touched with
    signatures := upsert (sameFunction signature) (fun _ => signature) signature store.signatures }

/-- A function differs from the record of it. One that was never recorded does not. -/
def signatureChanged (previous : Option SignatureRecord) (signature : SignatureRecord) : Bool :=
  previous.any fun record => record.snapshotHash != signature.snapshotHash

/-- Adds a document. One whose identity is taken is refused. -/
def recordDocument (store : Store) (path : String) (document : DocumentRecord) :
    Except StoreFailure Store :=
  if store.documents.any fun row => row.id == document.id then
    .error (.duplicate "doc_runs.doc_run_id")
  else
    let touched := store.touch document.repository path document.ranAt
    let kept := { document with qualityScore := document.qualityScore.map keptNumber }
    .ok { touched with documents := store.documents ++ [kept] }

/-- Notes a review of all documents of a session, whatever repository they belong to. -/
def reviewSession (store : Store) (session status : String) (comment : Option String) (now : Int) :
    Store :=
  { store with
    documents := store.documents.map fun row =>
      if row.session = session then
        { row with approvalStatus := status, reviewerComment := comment, reviewedAt := some now }
      else row }

/-- The number of documents of a session, which a review gives back. -/
def sessionDocuments (store : Store) (session : String) : Nat :=
  store.documents.countP fun row => row.session == session

/-- The row is the given entry of a collection. -/
def sameText (repository : String) (collection : TextCollection) (id : String) (row : StoredText) :
    Bool :=
  row.repository == repository && row.collection == collection && row.entry.id == id

/-- Puts one entry into a collection, in place of the one with its identity. -/
def putText (store : Store) (repository : String) (collection : TextCollection)
    (entry : TextEntry) : Store :=
  let row := StoredText.mk repository collection entry
  { store with
    texts := upsert (sameText repository collection entry.id) (fun _ => row) row store.texts }

/-- Puts entries into a collection one after the other, so of two with one identity the later one
stays. -/
def putTexts (store : Store) (repository : String) (collection : TextCollection)
    (entries : List TextEntry) : Store :=
  entries.foldl (fun store entry => store.putText repository collection entry) store

/-! ### Looking -/

/-- The record of a repository, if anything was written about it. -/
def repository? (store : Store) (id : String) : Option RepositoryRecord :=
  store.repositories.find? fun row => row.id == id

/-- The runs of a repository, the latest first. Of runs at one time the one recorded last comes
first. -/
def runsOf (store : Store) (repository : String) : List RunRecord :=
  (store.runs.filter fun row => row.repository == repository).reverse.mergeSort
    fun left right => right.ranAt ≤ left.ranAt

/-- The order of drifts: the most frequent first, then the latest, then by function and
description. -/
def driftAtMost (left right : DriftRecord) : Bool :=
  if left.timesSeen ≠ right.timesSeen then right.timesSeen < left.timesSeen
  else if left.lastSeen ≠ right.lastSeen then right.lastSeen < left.lastSeen
  else if left.function ≠ right.function then Text.atMost left.function right.function
  else Text.atMost left.description right.description

/-- The drifts of a repository in the order of drifts. -/
def driftsOf (store : Store) (repository : String) : List DriftRecord :=
  (store.drifts.filter fun row => row.repository == repository).mergeSort driftAtMost

/-- The signatures of a repository by function, in the order of their identities. -/
def signaturesOf (store : Store) (repository : String) : List SignatureRecord :=
  (store.signatures.filter fun row => row.repository == repository).mergeSort
    fun left right => Text.atMost left.function right.function

/-- The documents of a repository, the latest first. Of documents at one time the one recorded last
comes first. -/
def documentsOf (store : Store) (repository : String) : List DocumentRecord :=
  (store.documents.filter fun row => row.repository == repository).reverse.mergeSort
    fun left right => right.ranAt ≤ left.ranAt

/-- The status of an approved document. Every other status counts as not approved. -/
def approvedStatus : String := "approved"

/-- A review is at least as late as another. A missing time comes before all others. -/
def reviewedAtLeast (left right : Option Int) : Bool :=
  match left, right with
  | some left, some right => right ≤ left
  | none, some _ => false
  | _, none => true

/-- The text of the approved document of a repository that was reviewed last. -/
def latestApproved? (store : Store) (repository : String) : Option String :=
  let approved := (store.documents.filter fun row =>
    row.repository == repository && row.approvalStatus == approvedStatus).reverse.mergeSort
      fun left right => reviewedAtLeast left.reviewedAt right.reviewedAt
  approved.head?.bind DocumentRecord.finalMarkdown

/-- The entries of a collection of a repository, in the order in which they were first put there. -/
def textsOf (store : Store) (repository : String) (collection : TextCollection) :
    List TextEntry :=
  (store.texts.filter fun row => row.repository == repository && row.collection == collection).map
    StoredText.entry

/-- The order of hits: the most similar first, then by identity. -/
def hitAtMost (left right : TextHit) : Bool :=
  if right.similarity < left.similarity then true
  else if left.similarity < right.similarity then false
  else Text.atMost left.id right.id

/-- The hit of an entry, if its similarity to a vector is defined. -/
def hit? (query : Embedding) (entry : TextEntry) : Option TextHit :=
  (cosine? query entry.embedding).map fun similarity =>
    ⟨entry.id, entry.text, entry.metadata, similarity⟩

/-- The complaint about the first vector that cannot be read. The entries of a collection are read in
the order of their identities. -/
def firstMismatch? (entries : List TextEntry) : Option Json.Mismatch :=
  (entries.mergeSort fun left right => Text.atMost left.id right.id).findSome?
    fun entry => entry.embedding.mismatch?

/-- The entries of a collection that are most similar to a vector. All vectors of the collection are
read for it, so one that cannot be read makes the search fail. -/
def search (store : Store) (repository : String) (collection : TextCollection) (query : Embedding)
    (limit : Nat) : Except StoreFailure (List TextHit) :=
  if query.isEmpty || limit == 0 then .ok []
  else
    let entries := store.textsOf repository collection
    match firstMismatch? entries with
    | none => .ok (((entries.filterMap (hit? query)).mergeSort hitAtMost).take limit)
    | some mismatch => .error (.unreadableVector mismatch)

end Store

end MigrationGuard
