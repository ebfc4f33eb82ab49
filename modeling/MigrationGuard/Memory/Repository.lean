/-
This file is the memory of one repository. Structured records go into the store;
texts are embedded and put into an index, and when that fails the structured
record stands nevertheless. What is remembered comes back as lists, as texts that
resemble a question, as warnings about changes and as a text on a topic. Functions
are recorded one by one under the lock of the repository, so another program
cannot record the same functions in between. A request that makes no sense is
refused before anything is written.
-/

import MigrationGuard.Calendar
import MigrationGuard.Memory.Database
import MigrationGuard.Memory.Identity
import MigrationGuard.Memory.Warning

namespace MigrationGuard

open Data

/-- The memory of one repository: its place in the store and everything that it asks. -/
structure RepositoryMemory (m : Type → Type) where
  /-- The path of the repository, with one kind of slash. -/
  path : String
  /-- The identity of the repository. -/
  id : String
  /-- Takes the lock of the repository for what follows. -/
  lock : m (Except StoreFailure Unit)
  /-- The store. -/
  database : Database m
  index : TextIndex m
  /-- What embeds texts. -/
  embedder : Embedder m
  /-- The similarity that hits have to reach. -/
  minSimilarity : Float32

/-! ### Requests -/

/-- What is recorded of a run. What the session did not get to is absent. -/
structure RunRequest where
  session : String
  verdict : Option Verdict
  /-- The percentage of preserved behaviour. -/
  preservationPct : Option Float
  criticalDrifts : Option Nat
  riskScore : Option Float
  /-- The changes of the migration. -/
  changes : List PatchChange
  deriving DecidableEq, Repr

/-- What is recorded of a drift, before it is brought into the form of a record. -/
structure DriftRequest where
  function : String
  /-- How bad the drift is. -/
  severity : DriftSeverity
  /-- The drift in words. -/
  description : String
  beforeOutput : String
  afterOutput : String
  deriving DecidableEq, Repr

/-- What is recorded of a document, before anybody reviewed it. -/
structure DocumentRequest where
  session : String
  /-- How good it is thought to be. -/
  qualityScore : Option Float
  /-- Its length in words. -/
  wordCount : Option Int
  /-- The text. -/
  finalMarkdown : Option String
  deriving DecidableEq, Repr

/-- A function whose signature or effects changed. -/
structure ChangedFunction where
  /-- The identity of the function. -/
  name : String
  /-- The signature before. -/
  previousSignature : String
  /-- The signature now. -/
  newSignature : String
  deriving DecidableEq, Repr

instance : ToValue ChangedFunction where
  toValue change := .record [("name", toValue change.name),
    ("previous_signature", toValue change.previousSignature),
    ("new_signature", toValue change.newSignature)]

instance : OfValue ChangedFunction where
  ofValue? value := do
    match ← value.slots? ["name", "previous_signature", "new_signature"] with
    | [name, previous, new] => return ⟨← name.required, ← previous.required, ← new.required⟩
    | _ => none

/-- How much memory holds about a repository, in the store and in the index. -/
structure MemoryStats where
  repository : String
  record : Option RepositoryRecord
  /-- The number of drifts. -/
  driftCount : Nat
  /-- The number of functions. -/
  functionCount : Nat
  /-- The number of texts of each collection. -/
  textCounts : List (TextCollection × Nat)
  deriving DecidableEq, Repr

instance : ToValue MemoryStats where
  toValue stats := .record [("repo_id", toValue stats.repository), ("repo", toValue stats.record),
    ("drift_pattern_count", toValue stats.driftCount),
    ("tracked_function_count", toValue stats.functionCount),
    ("semantic_counts", .record ((stats.textCounts.mergeSort fun left right =>
      Text.atMost (Named.name left.1) (Named.name right.1)).map fun count =>
        (Named.name count.1, toValue count.2)))]

/-! ### Records and texts -/

/-- The text that a signature is told apart by. The signature comes first, then what it returns and
the effects. -/
def signaturePayload (signature returnType : String) (effects : List String) : String :=
  signature ++ "|" ++ returnType ++ "|" ++ Text.joined "," effects

/-- What a signature says that it returns: the text behind the last arrow. -/
def returnTypeOf (signature : String) : String :=
  ((Text.behindLastText " -> ".toList signature.toList).map fun text =>
    String.ofList (Text.trim text)).getD ""

/-- The record of a function, with the fingerprint of its signature and effects. -/
def SignatureRecord.ofNode (repository : String) (node : CallNode) (now : Int) : SignatureRecord :=
  let returnType := returnTypeOf node.signature
  ⟨repository, node.id, node.signature, returnType, node.effects.names,
    shortHash (signaturePayload node.signature returnType node.effects.names), now⟩

/-- A text that is to be put into the index: its identity, the text and what else is known. -/
abbrev PlainEntry := String × String × Value

/-- The text of a drift, by which similar drifts are found when a change is planned. -/
def driftEntry (repository function description : String) (request : DriftRequest)
    (timesSeen : Int) : PlainEntry :=
  let severity := Named.name request.severity
  ("drift_" ++ repository ++ "_" ++ function ++ "_" ++ shortHash description,
    "Drift in function: " ++ function ++ "\nSeverity: " ++ severity ++ "\nDescription: " ++
      description ++ "\nBefore: " ++ request.beforeOutput ++ "\nAfter: " ++ request.afterOutput,
    .record [("function_name", .text function), ("severity", .text severity),
      ("times_seen", .integer timesSeen)])

/-- The text of a function: its signature, its module and its effects. -/
def functionEntry (repository : String) (node : CallNode) : PlainEntry :=
  let effects := if node.effects.isEmpty then "none" else Text.joined ", " node.effects.names
  ("fn_" ++ repository ++ "_" ++ node.id,
    "Function: " ++ node.signature ++ "\nModule: " ++ node.module ++ "\nKind: " ++
      Named.name node.kind ++ "\nSide effects: " ++ effects,
    .record [("name", .text node.id), ("module", .text node.module), ("line", toValue node.line),
      ("has_side_effects", .bool node.hasEffects)])

/-- The text of a rule of the business, under the hash of the rule. -/
def ruleEntry (repository hint : String) : PlainEntry :=
  ("biz_" ++ repository ++ "_" ++ shortHash hint, hint, .record [("type", .text "biz_logic")])

/-- The length of the parts of a document, in characters. Parts are embedded one by one. -/
def documentChunkLength : Nat := 500

/-- The consecutive parts of a text. All but the last have the given length. -/
def chunksOfLength (length : Nat) (text : List Char) : List (List Char) :=
  if text = [] then []
  else text.take (max length 1) :: chunksOfLength length (text.drop (max length 1))
termination_by text.length
decreasing_by
  have present : 0 < text.length := List.length_pos_iff.2 (by assumption)
  simp only [List.length_drop]
  omega

/-- The texts of the parts of a document, each under its place in the document. -/
def documentEntries (repository session markdown : String) : List PlainEntry :=
  (chunksOfLength documentChunkLength markdown.toList).zipIdx.map fun (chunk, position) =>
    ("doc_" ++ repository ++ "_" ++ session ++ "_" ++ toString position, String.ofList chunk,
      .record [("session_id", .text session), ("chunk", toValue position)])

namespace RepositoryMemory

variable {m : Type → Type} [Monad m]

/-! ### Using the parts -/

/-- Looks something up in the store. Only the store itself can fail. -/
def look {Result : Type} (memory : RepositoryMemory m) (look : Store → Result) :
    m (Except MemoryFailure Result) := do
  return (← memory.database.query fun store => .ok (look store)).mapError .store

/-- Performs a write to the store, which either takes effect as a whole or not at all. -/
def write {Result : Type} (memory : RepositoryMemory m)
    (write : Store → Except StoreFailure (Store × Result)) : m (Except MemoryFailure Result) := do
  return (← memory.database.update write).mapError .store

/-- Embeds texts. Those that cannot be embedded are left out. -/
def embedAll (memory : RepositoryMemory m) : List PlainEntry → m (List TextEntry)
  | [] => return []
  | (id, text, metadata) :: entries => do
    let embedded ← memory.embedder.embed text
    let others ← memory.embedAll entries
    return match embedded with
      | .ok embedding => ⟨id, text, metadata, embedding⟩ :: others
      | .error _ => others

/-- Puts texts into the index, as far as that can be done. -/
def remember (memory : RepositoryMemory m) (collection : TextCollection)
    (entries : List PlainEntry) : m Unit := do
  if !entries.isEmpty then
    let embedded ← memory.embedAll entries
    let _ ← memory.index.put memory.id collection embedded

/-! ### Recording -/

/-- The record of a run, under an identity that is made of the session and the time. -/
def runRecord (memory : RepositoryMemory m) (request : RunRequest) (now : Int) : RunRecord :=
  let session := Text.trimmed request.session
  { id := recordId "run" memory.id session now
    repository := memory.id
    session
    ranAt := now
    verdict := request.verdict.map Named.name
    preservationPct := request.preservationPct
    criticalDrifts := request.criticalDrifts.map fun count => min (count : Int) (Nat.pow 2 63 - 1)
    riskScore := request.riskScore
    patchSummary := Json.compact (toValue request.changes) }

/-- Records a run and gives its identity. A session without a name is refused. -/
def recordRun (memory : RepositoryMemory m) (request : RunRequest) (now : Int) :
    m (Except MemoryFailure String) := do
  if Text.allBlank request.session then
    return .error (.invalidInput "session_id must not be empty")
  else
    let record := memory.runRecord request now
    memory.write fun store => (store.recordRun memory.path record).map fun next => (next, record.id)

/-- The record of a drift that is seen for the first time. -/
def driftRecord (memory : RepositoryMemory m) (request : DriftRequest) (now : Int) : DriftRecord :=
  ⟨memory.id, Text.trimmed request.function, Named.name request.severity,
    Text.trimmed request.description, request.beforeOutput, request.afterOutput, now, now, 1⟩

/-- Records a drift and gives how often it has been seen. -/
def recordDrift (memory : RepositoryMemory m) (request : DriftRequest) (now : Int) :
    m (Except MemoryFailure Int) := do
  if Text.allBlank request.function || Text.allBlank request.description then
    return .error (.invalidInput "drift requires a function name and description")
  else
    let record := memory.driftRecord request now
    match ← memory.write fun store =>
      let next := store.recordDrift memory.path record
      .ok (next, next.timesSeen record) with
    | .error failure => return .error failure
    | .ok timesSeen =>
      memory.remember .drifts
        [driftEntry memory.id record.function record.description request timesSeen]
      return .ok timesSeen

/-- Records one function. The result tells whether and how it changed. -/
def recordFunction (memory : RepositoryMemory m) (node : CallNode) (now : Int) :
    m (Except MemoryFailure (Option ChangedFunction)) :=
  let record := SignatureRecord.ofNode memory.id node now
  memory.write fun store =>
    let previous := store.previousSignature? record
    let changed := previous.filter fun _ => Store.signatureChanged previous record
    .ok (store.recordSignature memory.path record,
      changed.map fun before => ⟨node.id, before.signature, record.signature⟩)

/-- Records functions in order and gives those that changed. It ends at the first failure. -/
def recordEach (memory : RepositoryMemory m) (now : Int) :
    List CallNode → m (Except MemoryFailure (List ChangedFunction))
  | [] => return .ok []
  | node :: nodes => do
    match ← memory.recordFunction node now with
    | .error failure => return .error failure
    | .ok change => match ← memory.recordEach now nodes with
      | .error failure => return .error failure
      | .ok changes => return .ok (change.toList ++ changes)

/-- Records functions under the lock of the repository and gives those that changed. -/
def recordFunctions (memory : RepositoryMemory m) (nodes : List CallNode) (now : Int) :
    m (Except MemoryFailure (List ChangedFunction)) := do
  match ← memory.lock with
  | .error failure => return .error (.store failure)
  | .ok () => match ← memory.look fun _ => () with
    | .error failure => return .error failure
    | .ok () => match ← memory.recordEach now nodes with
      | .error failure => return .error failure
      | .ok changes =>
        memory.remember .functions (nodes.map (functionEntry memory.id))
        return .ok changes

/-- Remembers rules of the business and gives their number. Blank ones do not count. -/
def recordRules (memory : RepositoryMemory m) (hints : List String) :
    m (Except MemoryFailure Nat) := do
  let kept := (hints.map Text.trimmed).filter (· != "")
  memory.remember .rules (kept.map (ruleEntry memory.id))
  return .ok kept.length

/-- Notes a review of the documents of a session and gives their number. -/
def reviewDocuments (memory : RepositoryMemory m) (session status : String)
    (comment : Option String) (now : Int) : m (Except MemoryFailure Nat) :=
  memory.write fun store =>
    .ok (store.reviewSession session status comment now, store.sessionDocuments session)

/-- Approves the documents of a session, remembers the parts of the text and gives their number. -/
def recordApproved (memory : RepositoryMemory m) (session markdown : String) (now : Int) :
    m (Except MemoryFailure Nat) := do
  match ← memory.reviewDocuments session Store.approvedStatus none now with
  | .error failure => return .error failure
  | .ok _ =>
    let entries := documentEntries memory.id session markdown
    memory.remember .documents entries
    return .ok entries.length

/-- Records a document that waits for its review, and gives its identity. -/
def recordDocument (memory : RepositoryMemory m) (request : DocumentRequest) (now : Int) :
    m (Except MemoryFailure String) :=
  let id := recordId "doc" memory.id request.session now
  memory.write fun store =>
    (store.recordDocument memory.path ⟨id, memory.id, request.session, now, request.qualityScore,
      request.wordCount, "pending", none, none, request.finalMarkdown⟩).map fun next => (next, id)

/-! ### Looking -/

/-- The latest runs of the repository, up to a limit, the latest first. -/
def pastRuns (memory : RepositoryMemory m) (limit : Nat) :
    m (Except MemoryFailure (List RunRecord)) :=
  memory.look fun store => (store.runsOf memory.id).take limit

/-- The drifts of the repository, the most frequent first. -/
def knownDrifts (memory : RepositoryMemory m) : m (Except MemoryFailure (List DriftRecord)) :=
  memory.look fun store => store.driftsOf memory.id

/-- The functions of the repository as they were recorded last. -/
def signatures (memory : RepositoryMemory m) : m (Except MemoryFailure (List SignatureRecord)) :=
  memory.look fun store => store.signaturesOf memory.id

/-- The latest documents of the repository, up to a limit. -/
def documents (memory : RepositoryMemory m) (limit : Nat) :
    m (Except MemoryFailure (List DocumentRecord)) :=
  memory.look fun store => (store.documentsOf memory.id).take limit

/-- The text of the document that was approved last. -/
def latestApproved (memory : RepositoryMemory m) : m (Except MemoryFailure (Option String)) :=
  memory.look fun store => store.latestApproved? memory.id

/-- The number of texts of each collection. A collection that cannot be counted has none. -/
def countTexts (memory : RepositoryMemory m) :
    List TextCollection → m (List (TextCollection × Nat))
  | [] => return []
  | collection :: collections => do
    let count ← memory.index.count memory.id collection
    let others ← memory.countTexts collections
    return (collection, count.toOption.getD 0) :: others

/-- How much memory holds. -/
def stats (memory : RepositoryMemory m) : m (Except MemoryFailure MemoryStats) := do
  match ← memory.look fun store => store with
  | .error failure => return .error failure
  | .ok store =>
    let counts ← memory.countTexts Named.all
    return .ok ⟨memory.id, store.repository? memory.id, (store.driftsOf memory.id).length,
      (store.signaturesOf memory.id).length, counts⟩

/-- The texts of a collection that resemble a question. -/
def search (memory : RepositoryMemory m) (collection : TextCollection) (question : String)
    (limit : Nat) : m (Except MemoryFailure (List TextHit)) := do
  let question := Text.trimmed question
  if question == "" || limit == 0 then return .ok []
  else
    match ← memory.embedder.embed question with
    | .error failure => return .error failure
    | .ok embedding => match ← memory.index.search memory.id collection embedding limit with
      | .error failure => return .error (.store failure)
      | .ok hits => return .ok (hits.filter fun hit => memory.minSimilarity ≤ hit.similarity)

/-! ### Warnings -/

/-- How many similar drifts are looked up for a change. -/
def warningSearchLimit : Nat := 3

/-- The warnings with those that similar drifts give on changes. Searches that fail give none. -/
def addSimilar (memory : RepositoryMemory m) (warnings : List RiskWarning) :
    List PatchChange → m (List RiskWarning)
  | [] => return warnings
  | change :: changes => do
    if change.subject == "" || Text.allBlank change.description then
      memory.addSimilar warnings changes
    else
      let hits := (← memory.search .drifts change.description warningSearchLimit).toOption.getD []
      let further := similarityWarnings change.subject (warnings.map RiskWarning.function) hits
      memory.addSimilar (warnings ++ further) changes

/-- Warnings about changes. -/
def proactiveWarnings (memory : RepositoryMemory m) (changes : List PatchChange) :
    m (Except MemoryFailure (List RiskWarning)) := do
  match ← memory.knownDrifts with
  | .error failure => return .error failure
  | .ok known =>
    let warnings ← memory.addSimilar (memoryWarnings changes known) changes
    return .ok (dedupeWarnings warnings)

/-! ### Texts on a topic -/

/-- The line of a past run. -/
def runLine (run : RunRecord) : String :=
  "- Run " ++ (Calendar.dayText? run.ranAt).getD "unknown" ++ ": " ++
    run.verdict.getD "incomplete" ++ ", " ++
    ((run.preservationPct.map Decimal.plainText).getD "?") ++ "% preserved, " ++
    toString (run.criticalDrifts.getD 0) ++ " critical drifts"

/-- A heading with lines below it, or nothing where there are no lines. -/
def contextSection (start : List String) (heading : String) (lines : List String) : List String :=
  if lines.isEmpty then [] else start ++ heading :: lines

/-- The text on a topic from what was found. -/
def contextText (rules documents : List TextHit) (runs : List RunRecord) : String :=
  let lines :=
    contextSection [] "## Known business logic for this repo"
      (rules.map fun hit => "- " ++ hit.text) ++
    contextSection [""] "## Relevant sections from previously approved docs"
      (documents.map TextHit.text) ++
    contextSection [""] "## Recent migration history" (runs.map runLine)
  String.ofList (Text.trimStart (Text.joined "\n" lines).toList)

/-- What memory holds on a topic. -/
def context (memory : RepositoryMemory m) (topic : String) : m (Except MemoryFailure String) := do
  match ← memory.search .rules topic 5 with
  | .error failure => return .error failure
  | .ok rules => match ← memory.search .documents topic 3 with
    | .error failure => return .error failure
    | .ok documents => match ← memory.pastRuns 3 with
      | .error failure => return .error failure
      | .ok runs => return .ok (contextText rules documents runs)

end RepositoryMemory

end MigrationGuard
