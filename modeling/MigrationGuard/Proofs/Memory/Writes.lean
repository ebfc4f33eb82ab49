/-
This file takes what a store is asked to write as data. Whatever a memory does
with its store is made of such writes, all about its own repository except for
reviews, and of steps that look something up, take the lock or embed a text. So a
property that sequences of actions keep is one of all calls if it is one of these.
Which writes are allowed can be said for each use: all of them where clients of a
store are followed, those about one repository where others are to be left alone.
The calls are listed as those that record something and those that note a review,
and the theorem is proved once for either kind; isolation between repositories and
the history of clients are both instances of it.
-/

import MigrationGuard.Proofs.Memory.Tables
import MigrationGuard.Proofs.Memory.Updates

namespace MigrationGuard

variable {World : Type}

/-! ### Writes -/

/-- What a store is asked to write, with all that the write needs to know. -/
inductive StoreWrite where
  /-- Registers a repository. -/
  | touch (id path : String) (now : Int)
  /-- Adds a run. -/
  | run (path : String) (record : RunRecord)
  /-- Records a drift. -/
  | drift (path : String) (record : DriftRecord)
  /-- Records a signature. -/
  | signature (path : String) (record : SignatureRecord)
  /-- Adds a document. -/
  | document (path : String) (record : DocumentRecord)
  /-- Notes a review of the documents of a session. -/
  | review (session status : String) (comment : Option String) (now : Int)
  /-- Puts texts into a collection of a repository. -/
  | texts (repository : String) (collection : TextCollection) (entries : List TextEntry)

/-- What is told of a write that was accepted. -/
inductive StoreAnswer where
  /-- That it is done. -/
  | done
  /-- How often the drift was seen. -/
  | timesSeen (count : Int)
  /-- Whether the signature changed, and the one before. -/
  | previous (changed : Bool) (record : Option SignatureRecord)
  /-- The number of documents that were reviewed. -/
  | reviewed (count : Nat)

namespace StoreWrite

/-- What a write makes of a store, and what is told of it, or why it is refused. -/
def apply (store : Store) : StoreWrite → Except StoreFailure (Store × StoreAnswer)
  | .touch id path now => .ok (store.touch id path now, .done)
  | .run path record => (store.recordRun path record).map fun next => (next, .done)
  | .drift path record =>
    let next := store.recordDrift path record
    .ok (next, .timesSeen (next.timesSeen record))
  | .signature path record =>
    let previous := store.previousSignature? record
    .ok (store.recordSignature path record,
      .previous (Store.signatureChanged previous record) previous)
  | .document path record => (store.recordDocument path record).map fun next => (next, .done)
  | .review session status comment now =>
    .ok (store.reviewSession session status comment now,
      .reviewed (store.sessionDocuments session))
  | .texts repository collection entries =>
    .ok (store.putTexts repository collection entries, .done)

/-- Performs a write in a database, as a whole or not at all. -/
def perform (write : StoreWrite) (database : Database (StateM World)) :
    StateM World (Except StoreFailure StoreAnswer) :=
  database.update fun store => write.apply store

/-- The repository that a write is about. A review is about none. -/
def repository? : StoreWrite → Option String
  | .touch id _ _ => some id
  | .run _ record => some record.repository
  | .drift _ record => some record.repository
  | .signature _ record => some record.repository
  | .document _ record => some record.repository
  | .review .. => none
  | .texts repository _ _ => some repository

/-- What is made of a store is what the write makes of it, whatever is told. -/
def Makes {Result : Type} (write : StoreWrite)
    (make : Store → Except StoreFailure (Store × Result)) : Prop :=
  ∀ found, (make found).map Prod.fst = (write.apply found).map Prod.fst

/-- The store after a write that is accepted. A refused one leaves no store. -/
def after (store : Store) : StoreWrite → Store
  | .touch id path now => store.touch id path now
  | .run path record => store.withRun path record
  | .drift path record => store.recordDrift path record
  | .signature path record => store.recordSignature path record
  | .document path record => store.withDocument path record
  | .review session status comment now => store.reviewSession session status comment now
  | .texts repository collection entries => store.putTexts repository collection entries

theorem eq_after {write : StoreWrite} {store next : Store} {answer : StoreAnswer}
    (accepted : write.apply store = .ok (next, answer)) : next = write.after store := by
  cases write with
  | run path record =>
    replace accepted : (store.recordRun path record).map (fun next => (next, .done)) =
        .ok (next, answer) :=
      accepted
    rw [Store.recordRun_eq] at accepted
    split at accepted
    · exact nomatch accepted
    · exact (Prod.mk.inj (Except.ok.inj accepted)).1.symm
  | document path record =>
    replace accepted : (store.recordDocument path record).map (fun next => (next, .done)) =
        .ok (next, answer) :=
      accepted
    rw [Store.recordDocument_eq] at accepted
    split at accepted
    · exact nomatch accepted
    · exact (Prod.mk.inj (Except.ok.inj accepted)).1.symm
  | _ => exact (Prod.mk.inj (Except.ok.inj accepted)).1.symm

theorem Makes.eq_after {Result : Type} {write : StoreWrite}
    {make : Store → Except StoreFailure (Store × Result)} {found next : Store} {result : Result}
    (makes : write.Makes make) (made : make found = .ok (next, result)) :
    next = write.after found := by
  have same := makes found
  rw [made] at same
  rcases applied : write.apply found with failure | ⟨later, answer⟩
  · rw [applied] at same
    exact nomatch same
  · rw [applied] at same
    exact (Except.ok.inj same).trans (StoreWrite.eq_after applied)

end StoreWrite

/-! ### Calls -/

namespace RepositoryMemory

/-- What does not depend on texts is left alone when texts are remembered. -/
theorem leaves_remember_of_textless {Seen : Type} {memory : RepositoryMemory (StateM World)}
    {store : World → Store} (shares : memory.Shares store) (view : Store → Seen)
    (textless : ∀ (store : Store) texts, view { store with texts } = view store)
    (collection : TextCollection) (entries : List PlainEntry) :
    Leaves (fun world => view (store world)) (memory.remember collection entries) :=
  composes_remember (Leaves.composes _) (fun text => (shares.embed text).through view)
    (leaves_put shares view fun found texts =>
      found.seen_putTexts view textless memory.id collection texts) entries

/-- The call records something about the repository of the memory. It writes about no other one. -/
inductive Recording (memory : RepositoryMemory (StateM World)) :
    {Answer : Type} → StateM World (Except MemoryFailure Answer) → Prop where
  /-- A run. -/
  | run (request : RunRequest) (now : Int) : Recording memory (memory.recordRun request now)
  /-- A drift. -/
  | drift (request : DriftRequest) (now : Int) : Recording memory (memory.recordDrift request now)
  /-- Functions. -/
  | functions (nodes : List CallNode) (now : Int) :
    Recording memory (memory.recordFunctions nodes now)
  /-- Rules of the business. -/
  | rules (hints : List String) : Recording memory (memory.recordRules hints)
  /-- A document that waits for its review. -/
  | document (request : DocumentRequest) (now : Int) :
    Recording memory (memory.recordDocument request now)

/-- The call notes a review of the documents of a session, with its status, what the reviewer said
and the time. -/
inductive Reviewing (memory : RepositoryMemory (StateM World)) (session : String) :
    String → Option String → Int → {Answer : Type} → StateM World (Except MemoryFailure Answer) →
      Prop where
  /-- The review alone. -/
  | review (status : String) (comment : Option String) (now : Int) :
    Reviewing memory session status comment now
      (memory.reviewDocuments session status comment now)
  /-- An approval, whose text is remembered. -/
  | approval (markdown : String) (now : Int) :
    Reviewing memory session Store.approvedStatus none now
      (memory.recordApproved session markdown now)

/-- The property holds of all that calls of the memory are made of, as far as writes are allowed. -/
structure Does (memory : RepositoryMemory (StateM World)) (allowed : StoreWrite → Prop)
    (property : (Answer : Type) → StateM World Answer → Prop) : Prop extends Composes property where
  /-- It holds of taking the lock. -/
  lock : property _ memory.lock
  /-- It holds of looking something up. -/
  look : ∀ {Result : Type} (look : Store → Result), property _ (memory.look look)
  /-- It holds of embedding a text. -/
  embed : ∀ text, property _ (memory.embedder.embed text)
  /-- It holds of putting texts into the index. -/
  put : ∀ collection texts, property _ (memory.index.put memory.id collection texts)
  /-- It holds of every write that is allowed. -/
  write : ∀ {Result : Type} {make : Store → Except StoreFailure (Store × Result)}
    (write : StoreWrite), allowed write → write.Makes make → property _ (memory.write make)

namespace Does

variable {memory : RepositoryMemory (StateM World)} {allowed : StoreWrite → Prop}
  {property : (Answer : Type) → StateM World Answer → Prop} (does : memory.Does allowed property)
include does

theorem remember (collection : TextCollection) (entries : List PlainEntry) :
    property _ (memory.remember collection entries) :=
  composes_remember does.toComposes does.embed (does.put collection) entries

section
variable (own : ∀ write : StoreWrite, write.repository? = some memory.id → allowed write)
include own

/-- It holds of whatever the memory records, as recording writes about its own repository only. -/
theorem recording {Answer : Type} {action : StateM World (Except MemoryFailure Answer)}
    (recording : memory.Recording action) : property _ action := by
  cases recording with
  | run request now =>
    unfold recordRun
    split
    · exact does.pure _
    · refine does.write (.run memory.path (memory.runRecord request now)) (own _ rfl)
        fun found => ?_
      unfold StoreWrite.apply
      dsimp only
      cases found.recordRun memory.path (memory.runRecord request now) <;> rfl
  | drift request now =>
    unfold recordDrift
    split
    · exact does.pure _
    · refine does.bind (does.write (.drift memory.path (memory.driftRecord request now))
        (own _ rfl) fun _ => rfl) fun recorded => ?_
      cases recorded with
      | error failure => exact does.pure _
      | ok count => exact does.bind (does.remember _ _) fun _ => does.pure _
  | functions nodes now =>
    exact composes_recordFunctions does.toComposes
      (fun node => does.write (.signature memory.path (SignatureRecord.ofNode memory.id node now))
        (own _ rfl) fun _ => rfl)
      does.lock (does.look _) (does.remember _) nodes
  | rules hints => exact does.bind (does.remember _ _) fun _ => does.pure _
  | document request now =>
    refine does.write (.document memory.path ⟨recordId "doc" memory.id request.session now,
      memory.id, request.session, now, request.qualityScore, request.wordCount, "pending", none,
      none, request.finalMarkdown⟩) (own _ rfl) fun found => ?_
    unfold StoreWrite.apply
    dsimp only
    cases found.recordDocument memory.path _ <;> rfl

end

/-- It holds of whatever the memory reviews, where reviews are allowed. -/
theorem reviewing {session status : String} {comment : Option String} {now : Int}
    (review : allowed (.review session status comment now)) {Answer : Type}
    {action : StateM World (Except MemoryFailure Answer)}
    (reviewing : memory.Reviewing session status comment now action) : property _ action := by
  have reviewed : property _ (memory.reviewDocuments session status comment now) :=
    does.write (.review session status comment now) review fun _ => rfl
  cases reviewing with
  | review => exact reviewed
  | approval markdown =>
    refine does.bind reviewed fun outcome => ?_
    cases outcome with
    | error failure => exact does.pure _
    | ok count => exact does.bind (does.remember _ _) fun _ => does.pure _

end Does

end RepositoryMemory

end MigrationGuard
