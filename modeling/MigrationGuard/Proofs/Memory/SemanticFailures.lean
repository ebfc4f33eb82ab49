/-
This file shows that nothing structured depends on how texts are embedded and
found. Two runs of the same recordings, over two semantic layers that answer and
fail as they like, give the same answers and end with the same records, all but
the texts. The warnings about changes then come in both, and those from memory are
the same. A layer may do what it wants with the texts of the store. Of the rest of
the world it must leave alone what the database and the lock answer from. The
worlds of the two runs differ in the texts only, and each action is shown to
answer alike in such worlds and to lead to such worlds again: writes because they
do not look at texts, and remembering because what becomes of texts is told to
nobody.
-/

import MigrationGuard.Proofs.Memory.Tables
import MigrationGuard.Proofs.Memory.Warnings

namespace MigrationGuard

variable {World Rest : Type}

/-! ### All but the texts -/

/-- The store without its texts. All that is left of it is structured. -/
def Store.withoutTexts (store : Store) : Store :=
  { store with texts := [] }

/-- What is seen of the world but for the texts of the store, with what else the database answers
from. -/
def beyondTexts (store : World → Store) (rest : World → Rest) (world : World) : Store × Rest :=
  ((store world).withoutTexts, rest world)

/-- The worlds are the same but for the texts of the store. This is what both runs keep. -/
def SameBeyondTexts (store : World → Store) (rest : World → Rest) (first second : World) : Prop :=
  beyondTexts store rest first = beyondTexts store rest second

/-- The database holds the store. It and the lock answer alike in worlds that are the same but for
the texts. -/
structure AnswersBeyondTexts (memory : RepositoryMemory (StateM World)) (store : World → Store)
    (rest : World → Rest) : Prop where
  /-- The records are in the store. -/
  holds : memory.database.Holds store
  /-- The lock is taken or not. -/
  lock : Agrees (SameBeyondTexts store rest) id memory.lock memory.lock
  /-- The store is loaded or not. -/
  load : Agrees (SameBeyondTexts store rest) (Except.map Store.withoutTexts) memory.database.load
    memory.database.load
  /-- The store is saved or not, with any texts. -/
  save : ∀ next other, next.withoutTexts = other.withoutTexts →
    Agrees (SameBeyondTexts store rest) id (memory.database.save next) (memory.database.save other)

/-! ### Layers -/

/-- What embeds texts and finds them by their meaning. Both may be a service that fails. -/
structure SemanticLayer (m : Type → Type) where
  /-- What embeds texts. -/
  embedder : Embedder m
  /-- The index. -/
  index : TextIndex m

/-- Recording texts leaves alone what is seen of the world, whether the layer succeeds or fails. -/
structure SemanticLayer.Apart {Seen : Type} (layer : SemanticLayer (StateM World))
    (seen : World → Seen) : Prop where
  /-- Embedding a text. -/
  embed : ∀ text, Leaves seen (layer.embedder.embed text)
  /-- Putting texts into the index. -/
  put : ∀ repository collection entries,
    Leaves seen (layer.index.put repository collection entries)

/-- The memory over another semantic layer, with the same database and lock. -/
def RepositoryMemory.over {m : Type → Type} (memory : RepositoryMemory m)
    (layer : SemanticLayer m) : RepositoryMemory m :=
  { memory with index := layer.index, embedder := layer.embedder }

/-! ### Recordings -/

/-- A recording with a structured and a semantic side, as sessions make them. -/
inductive RecordingCall where
  /-- Records a drift. -/
  | drift (request : DriftRequest) (now : Int)
  /-- Records functions. -/
  | functions (nodes : List CallNode) (now : Int)
  /-- Remembers rules of the business. -/
  | rules (hints : List String)
  /-- Approves the documents of a session. -/
  | approved (session markdown : String) (now : Int)

/-- What a recording answers. None of it is told from texts. -/
inductive RecordingAnswer where
  /-- How often the drift has been seen. -/
  | timesSeen (count : Int)
  /-- The functions that changed. -/
  | changed (functions : List ChangedFunction)
  /-- The number of texts. -/
  | count (texts : Nat)
  deriving DecidableEq, Repr

namespace RepositoryMemory

variable {m : Type → Type} [Monad m]

/-- Performs a recording with the memory, with what it has to be told. -/
def perform (memory : RepositoryMemory m) :
    RecordingCall → m (Except MemoryFailure RecordingAnswer)
  | .drift request now => do return (← memory.recordDrift request now).map .timesSeen
  | .functions nodes now => do return (← memory.recordFunctions nodes now).map .changed
  | .rules hints => do return (← memory.recordRules hints).map .count
  | .approved session markdown now => do
    return (← memory.recordApproved session markdown now).map .count

/-- Performs recordings one after the other, whatever they answer. -/
def performAll (memory : RepositoryMemory m) :
    List RecordingCall → m (List (Except MemoryFailure RecordingAnswer))
  | [] => return []
  | call :: calls => do
    let answer ← memory.perform call
    let answers ← memory.performAll calls
    return answer :: answers

end RepositoryMemory

/-! ### The structured side -/

theorem sameBeyondTexts_composes {store : World → Store} {rest : World → Rest} :
    Composes fun _ action => Agrees (SameBeyondTexts store rest) id action action :=
  ⟨fun _ => Agrees.pure rfl, fun agrees each => agrees.bind_same each⟩

/-- Functions are recorded without the semantic layer, as their texts are remembered afterwards. -/
theorem recordEach_over (base : RepositoryMemory (StateM World))
    (layer : SemanticLayer (StateM World)) (now : Int) (nodes : List CallNode) :
    (base.over layer).recordEach now nodes = base.recordEach now nodes := by
  induction nodes with
  | nil => rfl
  | cons node nodes inductionHypothesis =>
    rw [RepositoryMemory.recordEach, RepositoryMemory.recordEach, inductionHypothesis]
    rfl

namespace AnswersBeyondTexts

variable {base : RepositoryMemory (StateM World)} {store : World → Store} {rest : World → Rest}
  (beyond : AnswersBeyondTexts base store rest)
include beyond

/-- A write that does not look at the texts answers alike in worlds that are the same but for
the texts. -/
theorem write {Result : Type} {make : Store → Except StoreFailure (Store × Result)}
    (textless : ∀ found, (make found).map (Prod.map Store.withoutTexts id) =
      make found.withoutTexts) :
    Agrees (SameBeyondTexts store rest) id (base.write make) (base.write make) := by
  refine Agrees.bind_same (Database.agrees_update beyond.load beyond.save fun one other alike => ?_)
    fun _ => Agrees.pure rfl
  rw [textless, textless, alike]

theorem opened :
    Agrees (SameBeyondTexts store rest) id (base.look fun _ => ()) (base.look fun _ => ()) := by
  refine Agrees.bind_same (Agrees.bind beyond.load fun one other same => ?_) fun _ =>
    Agrees.pure rfl
  obtain ⟨failure, rfl, rfl⟩ | ⟨found, foundToo, rfl, rfl, -⟩ := map_cases same <;>
    exact Agrees.pure rfl

theorem recordEach (nodes : List CallNode) (now : Int) :
    Agrees (SameBeyondTexts store rest) id (base.recordEach now nodes)
      (base.recordEach now nodes) :=
  RepositoryMemory.composes_recordEach sameBeyondTexts_composes
    (fun _ => beyond.write fun _ => rfl) nodes

end AnswersBeyondTexts

/-! ### Two layers -/

namespace SemanticLayer

variable {base : RepositoryMemory (StateM World)} {store : World → Store} {rest : World → Rest}
  {left right : SemanticLayer (StateM World)}
  (leftApart : left.Apart (beyondTexts store rest))
  (rightApart : right.Apart (beyondTexts store rest))
include leftApart rightApart

/-- Whatever becomes of texts that are to be remembered, nothing is told of it. -/
theorem agrees_remember (collection : TextCollection) (entries : List PlainEntry) :
    Agrees (SameBeyondTexts store rest) id ((base.over left).remember collection entries)
      ((base.over right).remember collection entries) :=
  Agrees.of_leaves
    (RepositoryMemory.composes_remember (Leaves.composes _) leftApart.embed
      (leftApart.put base.id collection) entries)
    (RepositoryMemory.composes_remember (Leaves.composes _) rightApart.embed
      (rightApart.put base.id collection) entries)
    fun _ _ => rfl

variable (beyond : AnswersBeyondTexts base store rest)
include beyond

/-- A recording answers alike over both layers, and the records are the same afterwards. -/
theorem agrees_perform (call : RecordingCall) :
    Agrees (SameBeyondTexts store rest) id ((base.over left).perform call)
      ((base.over right).perform call) := by
  have remember : ∀ collection entries, Agrees (SameBeyondTexts store rest) id
      ((base.over left).remember collection entries)
      ((base.over right).remember collection entries) :=
    agrees_remember leftApart rightApart
  cases call with
  | drift request now =>
    refine Agrees.bind_same ?_ fun _ => Agrees.pure rfl
    unfold RepositoryMemory.recordDrift
    split
    · exact Agrees.pure rfl
    · refine Agrees.bind_same (beyond.write fun _ => rfl) fun recorded => ?_
      cases recorded with
      | error failure => exact Agrees.pure rfl
      | ok count => exact Agrees.bind_same (remember _ _) fun _ => Agrees.pure rfl
  | functions nodes now =>
    refine Agrees.bind_same ?_ fun _ => Agrees.pure rfl
    refine Agrees.bind_same beyond.lock fun locked => ?_
    cases locked with
    | error failure => exact Agrees.pure rfl
    | ok _ =>
      refine Agrees.bind_same beyond.opened fun opened => ?_
      cases opened with
      | error failure => exact Agrees.pure rfl
      | ok _ =>
        dsimp only
        rw [recordEach_over, recordEach_over]
        refine Agrees.bind_same (beyond.recordEach nodes now) fun recorded => ?_
        cases recorded with
        | error failure => exact Agrees.pure rfl
        | ok changes => exact Agrees.bind_same (remember _ _) fun _ => Agrees.pure rfl
  | rules hints =>
    refine Agrees.bind_same ?_ fun _ => Agrees.pure rfl
    exact Agrees.bind_same (remember _ _) fun _ => Agrees.pure rfl
  | approved session markdown now =>
    refine Agrees.bind_same ?_ fun _ => Agrees.pure rfl
    refine Agrees.bind_same (beyond.write fun _ => rfl) fun reviewed => ?_
    cases reviewed with
    | error failure => exact Agrees.pure rfl
    | ok _ => exact Agrees.bind_same (remember _ _) fun _ => Agrees.pure rfl

/-- Recordings one after the other answer alike over both layers, each of them and whatever the
others answer. -/
theorem agrees_performAll (calls : List RecordingCall) :
    Agrees (SameBeyondTexts store rest) id ((base.over left).performAll calls)
      ((base.over right).performAll calls) := by
  induction calls with
  | nil => exact Agrees.pure rfl
  | cons call calls inductionHypothesis =>
    exact Agrees.bind_same (agrees_perform leftApart rightApart beyond call) fun _ =>
      Agrees.bind_same inductionHypothesis fun _ => Agrees.pure rfl

end SemanticLayer

/-! ### Failures of the layer -/

namespace RepositoryMemory

variable {base : RepositoryMemory (StateM World)} {store : World → Store} {rest : World → Rest}

/-- Over any layer there are warnings where the store can be loaded. They begin with those from
memory. -/
theorem exists_warnings_over (holds : base.database.Holds store)
    (layer : SemanticLayer (StateM World)) (changes : List PatchChange) {world : World}
    (opens : (base.database.load world).1.toBool = true) :
    ∃ warnings, ((base.over layer).proactiveWarnings changes world).1 = .ok warnings ∧
      dedupeWarnings (memoryWarnings changes ((store world).driftsOf base.id)) <+: warnings := by
  have knows : (base.knownDrifts world).1 = .ok ((store world).driftsOf base.id) :=
    look_of_loaded holds (fun store => store.driftsOf base.id) opens
  obtain ⟨further, found, -, -⟩ := exists_proactiveWarnings (base.over layer) changes knows
  exact ⟨_, found, dedupeWarnings_begins _ further⟩

/-- How a semantic layer answers and where it fails changes nothing structured. Recordings give the
same answers over two layers and leave the same records, and afterwards both memories warn of
changes at least as the records do. -/
theorem performAll_over_same (beyond : AnswersBeyondTexts base store rest)
    {left right : SemanticLayer (StateM World)} (leftApart : left.Apart (beyondTexts store rest))
    (rightApart : right.Apart (beyondTexts store rest)) (calls : List RecordingCall)
    (world : World) :
    ∃ answers one other,
      (base.over left).performAll calls world = (answers, one) ∧
      (base.over right).performAll calls world = (answers, other) ∧
      (store one).withoutTexts = (store other).withoutTexts ∧
      ∀ changes, (base.database.load one).1.toBool = true →
        ∃ warnings warningsToo,
          ((base.over left).proactiveWarnings changes one).1 = .ok warnings ∧
          ((base.over right).proactiveWarnings changes other).1 = .ok warningsToo ∧
          dedupeWarnings (memoryWarnings changes ((store one).driftsOf base.id)) <+: warnings ∧
          dedupeWarnings (memoryWarnings changes ((store one).driftsOf base.id)) <+:
            warningsToo := by
  rcases ran : (base.over left).performAll calls world with ⟨answers, one⟩
  rcases ranToo : (base.over right).performAll calls world with ⟨answersToo, other⟩
  obtain ⟨same, alike⟩ :=
    SemanticLayer.agrees_performAll leftApart rightApart beyond calls world world rfl
  rw [ran, ranToo] at same alike
  obtain rfl : answers = answersToo := same
  have structured : (store one).withoutTexts = (store other).withoutTexts := congrArg Prod.fst alike
  refine ⟨answers, one, other, rfl, rfl, structured, fun changes opens => ?_⟩
  have opensToo : (base.database.load other).1.toBool = true := by
    obtain ⟨_, failed, -⟩ | ⟨_, _, -, loaded, -⟩ := map_cases (beyond.load one other alike).1
    · rw [failed] at opens
      exact nomatch opens
    · rw [loaded]
      rfl
  have drifts : (store one).driftsOf base.id = (store other).driftsOf base.id :=
    (congrArg (fun found : Store => found.driftsOf base.id) structured :)
  obtain ⟨warnings, found, front⟩ := exists_warnings_over beyond.holds left changes opens
  obtain ⟨warningsToo, foundToo, frontToo⟩ :=
    exists_warnings_over beyond.holds right changes opensToo
  exact ⟨warnings, warningsToo, found, foundToo, front, drifts ▸ frontToo⟩

/-! ### A layer that always fails -/

/-- The semantic layer of the store itself, with texts embedded by hashing. -/
def hereLayer : SemanticLayer (StateM Store) :=
  ⟨.hashed, .ofDatabase .here⟩

/-- The semantic layer that always fails, at embedding and at finding. -/
def brokenLayer : SemanticLayer (StateM Store) where
  embedder := ⟨"broken", fun _ => return .error .request⟩
  index :=
    { put := fun _ _ _ => return .error .notADatabase
      search := fun _ _ _ _ => return .error .notADatabase
      count := fun _ _ => return .error .notADatabase }

theorem answersBeyondTexts_ofStore (id : String) :
    AnswersBeyondTexts (ofStore id) (fun store => store) fun _ => () where
  holds := Database.holds_here
  lock := Agrees.pure rfl
  load _ _ alike := ⟨congrArg Except.ok (congrArg Prod.fst alike), alike⟩
  save _ _ same _ _ _ := ⟨rfl, congrArg (·, ()) same⟩

theorem hereLayer_apart : hereLayer.Apart (beyondTexts (fun store => store) fun _ => ()) where
  embed _ := Leaves.pure _
  put repository collection entries store := by
    obtain same | becomes := TextIndex.put_ofDatabase Database.holds_here repository collection
      entries store
    · exact congrArg (fun store : Store => (store.withoutTexts, ())) same
    · refine (congrArg (fun store : Store => (store.withoutTexts, ())) becomes).trans ?_
      exact congrArg (·, ()) (store.seen_putTexts Store.withoutTexts (fun _ _ => rfl) repository
        collection entries)

theorem brokenLayer_apart : brokenLayer.Apart (beyondTexts (fun store => store) fun _ => ()) :=
  ⟨fun _ => Leaves.pure _, fun _ _ _ => Leaves.pure _⟩

/-- A drift and two rules are recorded in the same way where every embedding fails. -/
theorem performAll_over_broken :
    ∃ answers one other,
      ((ofStore "shop").over hereLayer).performAll
        [.drift ⟨"settle", .critical, "rounds down", "19.5", "19"⟩ 100, .rules ["no tax", " "]]
        .empty = (answers, one) ∧
      ((ofStore "shop").over brokenLayer).performAll
        [.drift ⟨"settle", .critical, "rounds down", "19.5", "19"⟩ 100, .rules ["no tax", " "]]
        .empty = (answers, other) ∧
      one.withoutTexts = other.withoutTexts ∧
      ∀ changes, ((ofStore "shop").database.load one).1.toBool = true →
        ∃ warnings warningsToo,
          (((ofStore "shop").over hereLayer).proactiveWarnings changes one).1 = .ok warnings ∧
          (((ofStore "shop").over brokenLayer).proactiveWarnings changes other).1 =
            .ok warningsToo ∧
          dedupeWarnings (memoryWarnings changes (one.driftsOf "shop")) <+: warnings ∧
          dedupeWarnings (memoryWarnings changes (one.driftsOf "shop")) <+: warningsToo :=
  performAll_over_same (answersBeyondTexts_ofStore "shop") hereLayer_apart brokenLayer_apart _ _

end RepositoryMemory

end MigrationGuard
