/-
This file holds the records that memory is made of: repositories, runs, drifts,
signatures of functions, documents and texts with their embeddings. Each of them
belongs to one repository, by its identity. Records are written as values and read
back field by field; an embedding is written by the bits of its numbers, so that
it comes back unchanged. What a record does not know stands there as absent, and
is not left out.
-/

import MigrationGuard.Behavior.Drift

namespace MigrationGuard

open Data

/-! ### Repositories and runs -/

/-- A repository that memory knows. Times are milliseconds since the beginning of 1970 and may be
written in any order. -/
structure RepositoryRecord where
  /-- The identity. -/
  id : String
  /-- The path under which it was last seen. -/
  path : String
  /-- When it was first written about. -/
  firstSeen : Int
  /-- The latest time at which it was written about. -/
  lastSeen : Int
  /-- The number of its runs. -/
  runCount : Nat
  deriving DecidableEq, Repr

instance : ToValue RepositoryRecord where
  toValue record := .record [("repo_id", toValue record.id), ("path", toValue record.path),
    ("first_seen", toValue record.firstSeen), ("last_seen", toValue record.lastSeen),
    ("run_count", toValue record.runCount)]

instance : OfValue RepositoryRecord where
  ofValue? value := do
    match ← value.slots? ["repo_id", "path", "first_seen", "last_seen", "run_count"] with
    | [id, path, firstSeen, lastSeen, runCount] =>
      return ⟨← id.required, ← path.required, ← firstSeen.required, ← lastSeen.required,
        ← runCount.required⟩
    | _ => none

/-- A run that ended in a verdict or was stopped. What was not reached is absent. -/
structure RunRecord where
  /-- The identity of the run. -/
  id : String
  repository : String
  session : String
  /-- When it ended. -/
  ranAt : Int
  /-- The name of the verdict. -/
  verdict : Option String
  /-- The percentage of preserved behaviour. -/
  preservationPct : Option Float
  criticalDrifts : Option Int
  riskScore : Option Float
  /-- The changes of the migration as text. -/
  patchSummary : String
  deriving DecidableEq, Repr

instance : ToValue RunRecord where
  toValue record := .record [("run_id", toValue record.id), ("repo_id", toValue record.repository),
    ("session_id", toValue record.session), ("ran_at", toValue record.ranAt),
    ("verdict", toValue record.verdict), ("preservation_pct", toValue record.preservationPct),
    ("critical_drifts", toValue record.criticalDrifts), ("risk_score", toValue record.riskScore),
    ("patch_summary", toValue record.patchSummary)]

instance : OfValue RunRecord where
  ofValue? value := do
    match ← value.slots? ["run_id", "repo_id", "session_id", "ran_at", "verdict",
      "preservation_pct", "critical_drifts", "risk_score", "patch_summary"] with
    | [id, repository, session, ranAt, verdict, preservation, critical, risk, summary] =>
      return ⟨← id.required, ← repository.required, ← session.required, ← ranAt.required,
        ← verdict.optional, ← preservation.optional, ← critical.optional, ← risk.optional,
        ← summary.required⟩
    | _ => none

/-! ### Drifts and signatures -/

/-- A drift of one function with one description. Further occurrences are counted in the same
record. -/
structure DriftRecord where
  repository : String
  function : String
  /-- The name of its severity. -/
  severity : String
  /-- The drift in words. -/
  description : String
  beforeOutput : String
  afterOutput : String
  /-- When it was seen first. -/
  firstSeen : Int
  /-- When it was recorded last. -/
  lastSeen : Int
  /-- How often it was recorded. -/
  timesSeen : Int
  deriving DecidableEq, Repr

instance : ToValue DriftRecord where
  toValue record := .record [("repo_id", toValue record.repository),
    ("function_name", toValue record.function), ("severity", toValue record.severity),
    ("description", toValue record.description), ("before_output", toValue record.beforeOutput),
    ("after_output", toValue record.afterOutput), ("first_seen", toValue record.firstSeen),
    ("last_seen", toValue record.lastSeen), ("times_seen", toValue record.timesSeen)]

instance : OfValue DriftRecord where
  ofValue? value := do
    match ← value.slots? ["repo_id", "function_name", "severity", "description", "before_output",
      "after_output", "first_seen", "last_seen", "times_seen"] with
    | [repository, function, severity, description, before, after,
        firstSeen, lastSeen, timesSeen] =>
      return ⟨← repository.required, ← function.required, ← severity.required,
        ← description.required, ← before.required, ← after.required, ← firstSeen.required,
        ← lastSeen.required, ← timesSeen.required⟩
    | _ => none

/-- What a function looked like when it was last recorded. -/
structure SignatureRecord where
  repository : String
  /-- The identity of the function. -/
  function : String
  signature : String
  /-- What the signature says that it returns. -/
  returnType : String
  /-- The names of its side effects. -/
  effects : List String
  /-- The fingerprint of all of these. -/
  snapshotHash : String
  /-- When it was recorded. -/
  lastSeen : Int
  deriving DecidableEq, Repr

instance : ToValue SignatureRecord where
  toValue record := .record [("repo_id", toValue record.repository),
    ("function_name", toValue record.function), ("signature", toValue record.signature),
    ("return_type", toValue record.returnType), ("side_effects", toValue record.effects),
    ("snapshot_hash", toValue record.snapshotHash), ("last_seen", toValue record.lastSeen)]

instance : OfValue SignatureRecord where
  ofValue? value := do
    match ← value.slots? ["repo_id", "function_name", "signature", "return_type", "side_effects",
      "snapshot_hash", "last_seen"] with
    | [repository, function, signature, returnType, effects, snapshotHash, lastSeen] =>
      return ⟨← repository.required, ← function.required, ← signature.required,
        ← returnType.required, ← effects.required, ← snapshotHash.required, ← lastSeen.required⟩
    | _ => none

/-! ### Documents -/

/-- A document that was written about a repository, and what its reviewers said. -/
structure DocumentRecord where
  /-- The identity of the document. -/
  id : String
  repository : String
  session : String
  /-- When it was written. -/
  ranAt : Int
  /-- How good it is thought to be. -/
  qualityScore : Option Float
  /-- Its length in words. -/
  wordCount : Option Int
  /-- The state of its review. -/
  approvalStatus : String
  /-- What the reviewer said. -/
  reviewerComment : Option String
  reviewedAt : Option Int
  /-- The text. -/
  finalMarkdown : Option String
  deriving DecidableEq, Repr

instance : ToValue DocumentRecord where
  toValue record := .record [("doc_run_id", toValue record.id),
    ("repo_id", toValue record.repository), ("session_id", toValue record.session),
    ("ran_at", toValue record.ranAt), ("qa_score", toValue record.qualityScore),
    ("word_count", toValue record.wordCount), ("approval_status", toValue record.approvalStatus),
    ("reviewer_comment", toValue record.reviewerComment),
    ("reviewed_at", toValue record.reviewedAt), ("final_markdown", toValue record.finalMarkdown)]

instance : OfValue DocumentRecord where
  ofValue? value := do
    match ← value.slots? ["doc_run_id", "repo_id", "session_id", "ran_at", "qa_score", "word_count",
      "approval_status", "reviewer_comment", "reviewed_at", "final_markdown"] with
    | [id, repository, session, ranAt, quality, words, status, comment, reviewedAt, markdown] =>
      return ⟨← id.required, ← repository.required, ← session.required, ← ranAt.required,
        ← quality.optional, ← words.optional, ← status.required, ← comment.optional,
        ← reviewedAt.optional, ← markdown.optional⟩
    | _ => none

/-! ### Texts with embeddings -/

/-- What a remembered text is about. Every collection of a repository is searched on its own. -/
inductive TextCollection where
  | functions
  | drifts
  /-- Rules of the business. -/
  | rules
  /-- Parts of approved documents. -/
  | documents
  deriving DecidableEq, Repr

instance : Named TextCollection where
  noun := "collection"
  all := [.functions, .drifts, .rules, .documents]
  name
    | .functions => "functions"
    | .drifts => "drifts"
    | .rules => "biz_logic"
    | .documents => "docs"

instance : OfValue TextCollection := ⟨ofWord? Named.table⟩

/-- A vector that stands for a text. Similar texts have vectors with similar directions. -/
abbrev Embedding := List Float32

/-- A text that can be found by its meaning, under an identity of its own. -/
structure TextEntry where
  /-- The identity of the entry. -/
  id : String
  text : String
  /-- What else is known of it. -/
  metadata : Value
  embedding : Embedding
  deriving Repr

/-- An entry of one collection of a repository, as the store keeps it. -/
structure StoredText where
  /-- The repository. -/
  repository : String
  collection : TextCollection
  entry : TextEntry
  deriving Repr

/-- An entry that a search found, without its embedding but with its similarity. -/
structure TextHit where
  /-- The identity of the entry. -/
  id : String
  text : String
  /-- What else is known of it. -/
  metadata : Value
  /-- How similar it is to what was looked for. -/
  similarity : Float32
  deriving Repr

instance : ToValue TextHit where
  toValue hit := .record [("entry_id", toValue hit.id), ("text", toValue hit.text),
    ("metadata", hit.metadata), ("similarity", toValue hit.similarity)]

/-- Embeddings are kept by the bits of their numbers. -/
instance : ToValue StoredText where
  toValue stored := .record [("repo_id", toValue stored.repository),
    ("collection", toValue stored.collection), ("entry_id", toValue stored.entry.id),
    ("text", toValue stored.entry.text), ("metadata", stored.entry.metadata),
    ("embedding", toValue (stored.entry.embedding.map fun number => number.toBits.toNat))]

instance : OfValue StoredText where
  ofValue? value := do
    match ← value.slots? ["repo_id", "collection", "entry_id", "text", "metadata", "embedding"] with
    | [repository, collection, id, text, metadata, embedding] =>
      let bits : List Nat ← embedding.required
      return ⟨← repository.required, ← collection.required, ← id.required, ← text.required,
        ← metadata.required, bits.map fun number => Float32.ofBits (UInt32.ofNat number)⟩
    | _ => none

end MigrationGuard
