/-
This file says which text is served as the approved document of a repository. Each
document is recorded by itself, but a review names a session and reaches those of
its documents that are there, in whichever repository they are. So a document is
approved just if the last review of its session since it was recorded says so. Of
the approved ones the one reviewed last is served, and of those reviewed at one
time the one recorded last. Memories of several repositories may record and review
in any order, and calls that fail do nothing. What is served is described by the
events alone; the proof computes the rows that events leave, each with the last
review behind its place, and shows that the store has these rows at every point of
a history.
-/

import MigrationGuard.Proofs.Memory.Latest
import MigrationGuard.Proofs.Memory.Recordings

namespace MigrationGuard

variable {World : Type}

/-! ### What happens to documents -/

/-- What happens to documents, whichever memory it comes from. -/
inductive DocumentEvent where
  /-- A document is recorded for a repository. -/
  | recorded (repository : String) (request : DocumentRequest) (now : Int)
  /-- A session is reviewed. -/
  | reviewed (session status : String) (comment : Option String) (now : Int)

/-- A review of a session, which reaches every document that the session has by then. -/
structure SessionReview where
  /-- How it ended. -/
  status : String
  /-- What the reviewer said. -/
  comment : Option String
  /-- When it was. -/
  time : Int

namespace DocumentEvent

/-- The review of a session that the event is, unless it is something else. -/
def reviewOf? (session : String) : DocumentEvent → Option SessionReview
  | .recorded .. => none
  | .reviewed other status comment now =>
    if other = session then some ⟨status, comment, now⟩ else none

/-- The last review of a session, if there was one. No earlier one matters. -/
def lastReview? (session : String) (events : List DocumentEvent) : Option SessionReview :=
  (events.filterMap (reviewOf? session)).getLast?

end DocumentEvent

/-- At a place a document of the repository was recorded with a text, and the last review of its
session from there on approved it at a time. -/
def ApprovedAt (repository : String) (events : List DocumentEvent) (place : Nat)
    (markdown : Option String) (time : Int) : Prop :=
  ∃ request now review, events[place]? = some (.recorded repository request now) ∧
    DocumentEvent.lastReview? request.session (events.drop (place + 1)) = some review ∧
    review.status = Store.approvedStatus ∧ review.time = time ∧ request.finalMarkdown = markdown

/-- The text is the one to be served after the events, or there is none to be served. -/
inductive Serves (repository : String) (events : List DocumentEvent) : Option String → Prop where
  /-- No document is approved. -/
  | nothing (unapproved : ∀ place markdown time, ¬ApprovedAt repository events place markdown time) :
    Serves repository events none
  /-- No approved document was reviewed later, and none of that time was recorded later. -/
  | latest {place : Nat} {markdown : Option String} {time : Int}
    (approved : ApprovedAt repository events place markdown time)
    (best : ∀ other text later, ApprovedAt repository events other text later →
      later < time ∨ later = time ∧ other ≤ place) :
    Serves repository events markdown

/-- The call does something to documents if it succeeds, and the event says what this is. -/
inductive RepositoryMemory.DocumentCall (memory : RepositoryMemory (StateM World)) :
    DocumentEvent → {Answer : Type} → StateM World (Except MemoryFailure Answer) → Prop where
  /-- It records a document. -/
  | record (request : DocumentRequest) (now : Int) :
    DocumentCall memory (.recorded memory.id request now) (memory.recordDocument request now)
  /-- It reviews a session. -/
  | review {session status : String} {comment : Option String} {now : Int} {Answer : Type}
    {action : StateM World (Except MemoryFailure Answer)}
    (reviewing : memory.Reviewing session status comment now action) :
    DocumentCall memory (.reviewed session status comment now) action

/-- Documents are recorded and sessions reviewed by memories that share a store, and calls that fail
do nothing. In between all may happen that leaves the documents alone. -/
inductive DocumentHistory (store : World → Store) : World → List DocumentEvent → Prop where
  /-- There are no documents at first. -/
  | begins {world : World} (none : (store world).documents = []) : DocumentHistory store world []
  /-- Something else happens. -/
  | passes {world later : World} {events : List DocumentEvent}
    (history : DocumentHistory store world events)
    (same : (store later).documents = (store world).documents) :
    DocumentHistory store later events
  /-- A call succeeds. -/
  | does {world later : World} {events : List DocumentEvent} {event : DocumentEvent}
    {memory : RepositoryMemory (StateM World)} {Answer : Type} {answer : Answer}
    {action : StateM World (Except MemoryFailure Answer)}
    (history : DocumentHistory store world events) (shares : memory.Shares store)
    (call : memory.DocumentCall event action) (done : action world = (.ok answer, later)) :
    DocumentHistory store later (events ++ [event])
  /-- A call fails. -/
  | fails {world later : World} {events : List DocumentEvent} {event : DocumentEvent}
    {memory : RepositoryMemory (StateM World)} {Answer : Type} {failure : MemoryFailure}
    {action : StateM World (Except MemoryFailure Answer)}
    (history : DocumentHistory store world events) (shares : memory.Shares store)
    (call : memory.DocumentCall event action) (failed : action world = (.error failure, later)) :
    DocumentHistory store later events

/-! ### Rows of documents -/

/-- The row of a document that waits for its review, as it is when it was just recorded. -/
def DocumentRequest.waiting (request : DocumentRequest) (repository : String) (now : Int) :
    DocumentRecord :=
  ⟨recordId "doc" repository request.session now, repository, request.session, now,
    request.qualityScore.map Store.keptNumber, request.wordCount, "pending", none, none,
    request.finalMarkdown⟩

/-- The row with what a review says, or as it was if there was none. -/
def DocumentRecord.reviewedBy (row : DocumentRecord) : Option SessionReview → DocumentRecord
  | none => row
  | some review =>
    { row with
      approvalStatus := review.status
      reviewerComment := review.comment
      reviewedAt := some review.time }

/-- The row after a review of a session, which may be the session of another document. -/
def DocumentRecord.afterReview (session : String) (review : SessionReview) (row : DocumentRecord) :
    DocumentRecord :=
  if row.session = session then row.reviewedBy (some review) else row

namespace DocumentEvent

/-- The rows that events leave, with the places at which they were recorded. The place of the first
event is given. -/
def rowsFrom (place : Nat) : List DocumentEvent → List (Nat × DocumentRecord)
  | [] => []
  | .recorded repository request now :: later =>
    (place, (request.waiting repository now).reviewedBy (lastReview? request.session later)) ::
      rowsFrom (place + 1) later
  | .reviewed .. :: later => rowsFrom (place + 1) later

theorem lastReview?_concat (session : String) (events : List DocumentEvent)
    (event : DocumentEvent) :
    lastReview? session (events ++ [event]) =
      (event.reviewOf? session).or (lastReview? session events) := by
  rw [lastReview?, List.filterMap_append, List.filterMap_cons, List.filterMap_nil]
  cases event.reviewOf? session with
  | none => exact congrArg List.getLast? (List.append_nil _)
  | some review => exact List.getLast?_concat

/-- A document that is recorded waits for its review, and nothing changes for the others. -/
theorem rowsFrom_concat_recorded (place : Nat) (events : List DocumentEvent) (repository : String)
    (request : DocumentRequest) (now : Int) :
    rowsFrom place (events ++ [.recorded repository request now]) =
      rowsFrom place events ++ [(place + events.length, request.waiting repository now)] := by
  induction events generalizing place with
  | nil => rfl
  | cons event events inductionHypothesis =>
    have next : place + 1 + events.length = place + (event :: events).length := by
      rw [List.length_cons]
      omega
    cases event with
    | recorded =>
      rw [List.cons_append, rowsFrom, rowsFrom, inductionHypothesis, lastReview?_concat, next,
        List.cons_append]
      rfl
    | reviewed => rw [List.cons_append, rowsFrom, rowsFrom, inductionHypothesis, next]

/-- A review reaches all documents of the session that are there, and none that is recorded later.
-/
theorem rowsFrom_concat_reviewed (place : Nat) (events : List DocumentEvent)
    (session status : String) (comment : Option String) (now : Int) :
    rowsFrom place (events ++ [.reviewed session status comment now]) =
      (rowsFrom place events).map fun row =>
        (row.1, row.2.afterReview session ⟨status, comment, now⟩) := by
  induction events generalizing place with
  | nil => rfl
  | cons event events inductionHypothesis =>
    cases event with
    | recorded repository request time =>
      have reviewed : (request.waiting repository time).reviewedBy
          (lastReview? request.session (events ++ [.reviewed session status comment now])) =
          ((request.waiting repository time).reviewedBy
            (lastReview? request.session events)).afterReview session ⟨status, comment, now⟩ := by
        have ofSession : ∀ review?, ((request.waiting repository time).reviewedBy review?).session =
            request.session := fun review? => by cases review? <;> rfl
        rw [lastReview?_concat, DocumentRecord.afterReview, ofSession, reviewOf?]
        simp only [eq_comm (a := session)]
        split_ifs with same
        · cases lastReview? request.session events <;> rfl
        · rfl
      rw [List.cons_append, rowsFrom, rowsFrom, List.map_cons, inductionHypothesis, reviewed]
    | reviewed => rw [List.cons_append, rowsFrom, rowsFrom, inductionHypothesis]

/-- The rows are those of the documents that were recorded, each with the last review of its session
from there on. -/
theorem mem_rowsFrom {start place : Nat} {events : List DocumentEvent} {row : DocumentRecord} :
    (place, row) ∈ rowsFrom start events ↔ ∃ offset repository request now,
      place = start + offset ∧ events[offset]? = some (.recorded repository request now) ∧
        row = (request.waiting repository now).reviewedBy
          (lastReview? request.session (events.drop (offset + 1))) := by
  induction events generalizing start with
  | nil => simp [rowsFrom]
  | cons event events inductionHypothesis =>
    have later : (place, row) ∈ rowsFrom (start + 1) events ↔ ∃ offset repository request now,
        place = start + (offset + 1) ∧
          (event :: events)[offset + 1]? = some (.recorded repository request now) ∧
          row = (request.waiting repository now).reviewedBy
            (lastReview? request.session ((event :: events).drop (offset + 1 + 1))) := by
      rw [inductionHypothesis]
      simp only [Nat.add_right_comm start, Nat.add_assoc, List.getElem?_cons_succ,
        List.drop_succ_cons]
    -- The first event is at offset zero, and all others are those behind it.
    rw [← Nat.or_exists_add_one, ← later]
    cases event with
    | recorded repository request now => simp [rowsFrom]
    | reviewed => simp [rowsFrom]

theorem pairwise_rowsFrom (start : Nat) (events : List DocumentEvent) :
    (rowsFrom start events).Pairwise fun one other => one.1 < other.1 := by
  induction events generalizing start with
  | nil => exact .nil
  | cons event events inductionHypothesis =>
    cases event with
    | recorded =>
      refine List.pairwise_cons.mpr ⟨fun other member => ?_, inductionHypothesis _⟩
      obtain ⟨offset, _, _, _, place, -⟩ := mem_rowsFrom.mp member
      omega
    | reviewed => exact inductionHypothesis _

end DocumentEvent

/-! ### Calls -/

namespace RepositoryMemory

variable {memory : RepositoryMemory (StateM World)} {store : World → Store}
  (shares : memory.Shares store) {world later : World}
include shares

/-- A document that is recorded is one row more, and the others stay as they are. -/
theorem documents_of_recorded {request : DocumentRequest} {now : Int} {id : String}
    (done : memory.recordDocument request now world = (.ok id, later)) :
    (store later).documents = (store world).documents ++ [request.waiting memory.id now] := by
  have accepted := accepted_of_done shares done
  rw [Store.recordDocument_eq] at accepted
  split at accepted
  · exact nomatch accepted
  · exact congrArg Store.documents (congrArg Prod.fst (Except.ok.inj accepted)).symm

/-- A review that succeeds reaches the rows of its session, and one that fails reaches none. -/
theorem documents_of_reviewing {session status : String} {comment : Option String} {now : Int}
    {Answer : Type} {action : StateM World (Except MemoryFailure Answer)}
    (reviewing : memory.Reviewing session status comment now action)
    {outcome : Except MemoryFailure Answer} (ran : action world = (outcome, later)) :
    (store later).documents = match outcome with
      | .ok _ => (store world).documents.map (.afterReview session ⟨status, comment, now⟩)
      | .error _ => (store world).documents := by
  cases reviewing with
  | review =>
    cases outcome with
    | ok count =>
      have accepted := accepted_of_done shares ran
      exact congrArg Store.documents (congrArg Prod.fst (Except.ok.inj accepted)).symm
    | error failure => exact congrArg Store.documents (store_of_failed shares ran)
  | approval markdown =>
    rw [recordApproved, bind_apply] at ran
    rcases reviewed : memory.reviewDocuments session Store.approvedStatus none now world with
      ⟨failure | count, between⟩
    · rw [reviewed] at ran
      obtain ⟨rfl, rfl⟩ := Prod.mk.inj ran
      exact congrArg Store.documents (store_of_failed shares reviewed)
    · rw [reviewed] at ran
      obtain ⟨rfl, rfl⟩ := Prod.mk.inj ran
      have accepted := accepted_of_done shares reviewed
      refine (leaves_remember_of_textless shares Store.documents (fun _ _ => rfl) .documents
        (documentEntries memory.id session markdown) between).trans ?_
      exact congrArg Store.documents (congrArg Prod.fst (Except.ok.inj accepted)).symm

end RepositoryMemory

namespace DocumentHistory

variable {store : World → Store} {world : World} {events : List DocumentEvent}

/-- At every point of a history the rows are those that the events leave. -/
theorem documents_eq (history : DocumentHistory store world events) :
    (store world).documents = (DocumentEvent.rowsFrom 0 events).map Prod.snd := by
  induction history with
  | begins none => exact none
  | passes _ same inductionHypothesis => exact same.trans inductionHypothesis
  | does _ shares call done inductionHypothesis =>
    cases call with
    | record request now =>
      rw [RepositoryMemory.documents_of_recorded shares done, inductionHypothesis,
        DocumentEvent.rowsFrom_concat_recorded, List.map_append]
      rfl
    | review reviewing =>
      rw [RepositoryMemory.documents_of_reviewing shares reviewing done, inductionHypothesis,
        DocumentEvent.rowsFrom_concat_reviewed, List.map_map, List.map_map]
      rfl
  | fails _ shares call failed inductionHypothesis =>
    cases call with
    | record request now =>
      rw [RepositoryMemory.store_of_failed shares failed, inductionHypothesis]
    | review reviewing =>
      rw [RepositoryMemory.documents_of_reviewing shares reviewing failed, inductionHypothesis]

/-- A call that succeeds goes on with the history, whichever way it was made. -/
theorem of_call (history : DocumentHistory store world events)
    {memory : RepositoryMemory (StateM World)} (shares : memory.Shares store)
    {event : DocumentEvent} {Answer : Type} {action : StateM World (Except MemoryFailure Answer)}
    (call : memory.DocumentCall event action) (succeeds : (action world).1.toBool = true) :
    DocumentHistory store (action world).2 (events ++ [event]) := by
  rcases ran : action world with ⟨failure | answer, later⟩
  · rw [ran] at succeeds
    exact nomatch succeeds
  · exact history.does shares call ran

end DocumentHistory

/-! ### The document that is served -/

/-- The row is about an approved document of the repository, whenever that was approved. -/
def DocumentRecord.isApproved (repository : String) (row : DocumentRecord) : Bool :=
  row.repository == repository && row.approvalStatus == Store.approvedStatus

namespace DocumentEvent

/-- The rows of the approved documents of a repository, in the order in which they were recorded. -/
def approvedRows (repository : String) (events : List DocumentEvent) :
    List (Nat × DocumentRecord) :=
  (rowsFrom 0 events).filter fun row => row.2.isApproved repository

/-- A row is approved just if a review says so, and then it tells when that was. -/
theorem isApproved_reviewedBy (request : DocumentRequest) (repository owner : String) (now : Int)
    (review? : Option SessionReview) :
    ((request.waiting owner now).reviewedBy review?).isApproved repository ↔
      owner = repository ∧ ∃ review, review? = some review ∧
        review.status = Store.approvedStatus := by
  cases review? <;>
    simp [DocumentRecord.isApproved, DocumentRecord.reviewedBy, DocumentRequest.waiting,
      Store.approvedStatus]

theorem mem_approvedRows {repository : String} {events : List DocumentEvent} {place : Nat}
    {row : DocumentRecord} :
    (place, row) ∈ approvedRows repository events ↔ ∃ request now review,
      events[place]? = some (.recorded repository request now) ∧
        lastReview? request.session (events.drop (place + 1)) = some review ∧
        review.status = Store.approvedStatus ∧
        row = (request.waiting repository now).reviewedBy (some review) := by
  rw [approvedRows, List.mem_filter, mem_rowsFrom]
  constructor
  · rintro ⟨⟨offset, owner, request, now, rfl, recorded, rfl⟩, approved⟩
    obtain ⟨rfl, review, last, status⟩ := (isApproved_reviewedBy _ _ _ _ _).mp approved
    rw [Nat.zero_add]
    exact ⟨request, now, review, recorded, last, status, by rw [last]⟩
  · rintro ⟨request, now, review, recorded, last, status, rfl⟩
    refine ⟨⟨place, repository, request, now, (Nat.zero_add place).symm, recorded, ?_⟩, ?_⟩
    · rw [last]
    · exact (isApproved_reviewedBy _ _ _ _ _).mpr ⟨rfl, review, rfl, status⟩

/-- What is approved at a place is a row there that tells the text and the time. -/
theorem approvedAt_iff {repository : String} {events : List DocumentEvent} {place : Nat}
    {markdown : Option String} {time : Int} :
    ApprovedAt repository events place markdown time ↔ ∃ row,
      (place, row) ∈ approvedRows repository events ∧ row.reviewedAt = some time ∧
        row.finalMarkdown = markdown := by
  constructor
  · rintro ⟨request, now, review, recorded, last, status, rfl, rfl⟩
    exact ⟨_, mem_approvedRows.mpr ⟨request, now, review, recorded, last, status, rfl⟩, rfl, rfl⟩
  · rintro ⟨row, member, isTime, isMarkdown⟩
    obtain ⟨request, now, review, recorded, last, status, rfl⟩ := mem_approvedRows.mp member
    exact ⟨request, now, review, recorded, last, status, Option.some.inj isTime, isMarkdown⟩

theorem exists_approvedAt {repository : String} {events : List DocumentEvent}
    {row : Nat × DocumentRecord} (member : row ∈ approvedRows repository events) :
    ∃ time, row.2.reviewedAt = some time ∧
      ApprovedAt repository events row.1 row.2.finalMarkdown time := by
  obtain ⟨request, now, review, -, -, -, isRow⟩ := mem_approvedRows.mp member
  have isTime : row.2.reviewedAt = some review.time := by rw [isRow]; rfl
  exact ⟨review.time, isTime, approvedAt_iff.mpr ⟨row.2, member, isTime, rfl⟩⟩

/-- The rows of the approved documents, the one reviewed last before the others. The first one is
served. -/
def servedRows (repository : String) (events : List DocumentEvent) : List (Nat × DocumentRecord) :=
  (approvedRows repository events).reverse.mergeSort fun left right =>
    Store.reviewedAtLeast left.2.reviewedAt right.2.reviewedAt

theorem mem_servedRows {repository : String} {events : List DocumentEvent}
    {row : Nat × DocumentRecord} :
    row ∈ servedRows repository events ↔ row ∈ approvedRows repository events := by
  rw [servedRows, List.mem_mergeSort, List.mem_reverse]

/-- No row that comes later was reviewed later, and none of that time was recorded later. -/
theorem pairwise_servedRows (repository : String) (events : List DocumentEvent) :
    (servedRows repository events).Pairwise fun one other => ∀ time later,
      one.2.reviewedAt = some time → other.2.reviewedAt = some later →
        later < time ∨ later = time ∧ other.1 ≤ one.1 := by
  have recordedLast : (approvedRows repository events).reverse.Pairwise fun one other =>
      other.1 < one.1 :=
    List.pairwise_reverse.mpr ((pairwise_rowsFrom 0 events).sublist List.filter_sublist)
  refine (pairwise_mergeSort_stable (fun one other third => ?_) (fun one other => ?_)
    recordedLast).imp fun {one other} sorted time later isTime isLater => ?_
  · cases one.2.reviewedAt <;> cases other.2.reviewedAt <;> cases third.2.reviewedAt <;>
      simp [Store.reviewedAtLeast]
    omega
  · cases one.2.reviewedAt <;> cases other.2.reviewedAt <;> simp [Store.reviewedAtLeast]
    omega
  · obtain ⟨notEarlier, alike⟩ := sorted
    simp only [isTime, isLater, Store.reviewedAtLeast, decide_eq_true_eq] at notEarlier alike
    omega

end DocumentEvent

/-- What a store serves is told from the rows that the events leave. -/
theorem Store.latestApproved?_eq {store : Store} {events : List DocumentEvent}
    (rows : store.documents = (DocumentEvent.rowsFrom 0 events).map Prod.snd)
    (repository : String) :
    store.latestApproved? repository =
      (DocumentEvent.servedRows repository events).head?.bind fun row => row.2.finalMarkdown := by
  have approved : (store.documents.filter fun row =>
      row.repository == repository && row.approvalStatus == approvedStatus) =
        (DocumentEvent.approvedRows repository events).map Prod.snd := by
    rw [rows, List.filter_map]
    rfl
  have sorted := List.map_mergeSort (l := (DocumentEvent.approvedRows repository events).reverse)
    (r := fun left right => reviewedAtLeast left.2.reviewedAt right.2.reviewedAt)
    (s := fun left right : DocumentRecord => reviewedAtLeast left.reviewedAt right.reviewedAt)
    (f := Prod.snd) fun _ _ _ _ => rfl
  rw [latestApproved?, approved, ← List.map_reverse, ← sorted, List.head?_map, Option.bind_map]
  rfl

/-- After any history of documents and reviews, the approved document that is served is the one
reviewed last, and where there are several of that time, the one recorded last. -/
theorem DocumentHistory.serves {memory : RepositoryMemory (StateM World)} {store : World → Store}
    (holds : memory.database.Holds store) {world : World} {events : List DocumentEvent}
    (history : DocumentHistory store world events)
    (opens : (memory.database.load world).1.toBool = true) :
    ∃ answer, (memory.latestApproved world).1 = .ok answer ∧ Serves memory.id events answer := by
  refine ⟨_, RepositoryMemory.look_of_loaded holds _ opens, ?_⟩
  rw [Store.latestApproved?_eq history.documents_eq]
  have ordered := DocumentEvent.pairwise_servedRows memory.id events
  rcases served : DocumentEvent.servedRows memory.id events with _ | ⟨first, others⟩
  · refine .nothing fun place markdown time approved => ?_
    obtain ⟨row, member, -⟩ := DocumentEvent.approvedAt_iff.mp approved
    exact nomatch served ▸ DocumentEvent.mem_servedRows.mpr member
  · have isFirst : first ∈ DocumentEvent.servedRows memory.id events :=
      served ▸ List.mem_cons_self
    obtain ⟨time, isTime, approved⟩ :=
      DocumentEvent.exists_approvedAt (DocumentEvent.mem_servedRows.mp isFirst)
    refine .latest approved fun other text later approvedToo => ?_
    obtain ⟨row, member, isLater, -⟩ := DocumentEvent.approvedAt_iff.mp approvedToo
    have among : (other, row) ∈ first :: others := served ▸ DocumentEvent.mem_servedRows.mpr member
    obtain rfl | behind := List.mem_cons.mp among
    · exact Or.inr ⟨Option.some.inj (isLater.symm.trans isTime), Nat.le_refl _⟩
    · rw [served, List.pairwise_cons] at ordered
      exact ordered.1 _ behind time later isTime isLater

/-- A guide is approved and then drafted again, and a plan is approved first and rejected then. -/
def handbookEvents : List DocumentEvent :=
  [.recorded "shop" ⟨"guide", none, none, some "Add tax."⟩ 1, .reviewed "guide" "approved" none 5,
    .recorded "shop" ⟨"guide", none, none, some "Cut tax."⟩ 6,
    .recorded "shop" ⟨"plan", none, none, some "Sell more."⟩ 7, .reviewed "plan" "approved" none 9,
    .reviewed "plan" "rejected" none 10]

/-- The store after these events, each made by a call. -/
def handbookStore : Store :=
  let shop := RepositoryMemory.ofStore "shop"
  let written := (shop.recordDocument ⟨"guide", none, none, some "Add tax."⟩ 1 .empty).2
  let published := (shop.reviewDocuments "guide" "approved" none 5 written).2
  let drafted := (shop.recordDocument ⟨"guide", none, none, some "Cut tax."⟩ 6 published).2
  let planned := (shop.recordDocument ⟨"plan", none, none, some "Sell more."⟩ 7 drafted).2
  let agreed := (shop.recordApproved "plan" "Sell more." 9 planned).2
  (shop.reviewDocuments "plan" "rejected" none 10 agreed).2

theorem handbookStore_history :
    DocumentHistory (fun store => store) handbookStore handbookEvents := by
  let shop := RepositoryMemory.ofStore "shop"
  have shares := RepositoryMemory.shares_ofStore "shop"
  have reviews : ∀ session status now, shop.DocumentCall (.reviewed session status none now)
      (shop.reviewDocuments session status none now) :=
    fun _ status now => .review (.review status none now)
  have approves : ∀ session markdown now,
      shop.DocumentCall (.reviewed session Store.approvedStatus none now)
        (shop.recordApproved session markdown now) :=
    fun _ markdown now => .review (.approval markdown now)
  have begun : DocumentHistory (fun store => store) Store.empty [] := .begins rfl
  have written := begun.of_call shares (.record ⟨"guide", none, none, some "Add tax."⟩ 1) rfl
  have published := written.of_call shares (reviews "guide" "approved" 5) rfl
  have drafted := published.of_call shares (.record ⟨"guide", none, none, some "Cut tax."⟩ 6)
    (by decide +kernel)
  have planned := drafted.of_call shares (.record ⟨"plan", none, none, some "Sell more."⟩ 7)
    (by decide +kernel)
  have agreed := planned.of_call shares (approves "plan" "Sell more." 9) rfl
  exact agreed.of_call shares (reviews "plan" "rejected" 10) rfl

/-- The draft was recorded after the approval and the plan was rejected in the end, so the first
guide is served. -/
theorem handbookStore_serves :
    ((RepositoryMemory.ofStore "shop").latestApproved handbookStore).1 =
        .ok (some "Add tax.") ∧
      Serves "shop" handbookEvents (some "Add tax.") := by
  obtain ⟨answer, answered, serves⟩ := DocumentHistory.serves
    (RepositoryMemory.shares_ofStore "shop").database handbookStore_history rfl
  have approved : (handbookStore.documents.filter fun row =>
      row.repository == "shop" && row.approvalStatus == Store.approvedStatus).map
        DocumentRecord.finalMarkdown = [some "Add tax."] := by
    rw [handbookStore_history.documents_eq]
    decide +kernel
  obtain ⟨row, only, text⟩ := List.map_eq_singleton_iff.mp approved
  have isAnswer : handbookStore.latestApproved? "shop" = some "Add tax." := by
    rw [Store.latestApproved?, only, List.reverse_singleton, List.mergeSort_singleton]
    exact text
  have served : ((RepositoryMemory.ofStore "shop").latestApproved handbookStore).1 =
      .ok (some "Add tax.") :=
    congrArg Except.ok isAnswer
  obtain rfl := Except.ok.inj (answered.symm.trans served)
  exact ⟨served, serves⟩

end MigrationGuard
