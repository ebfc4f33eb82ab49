/-
This file says when a search fails because an embedding cannot be read back. What is
kept of a number that is not finite is no number, so one such embedding spoils all
searches of its collection. Whether a number of an answer is finite is checked before
it is narrowed. So after any history of writes a search fails just if an entry that
was written last under its identity comes from an answer with a number that is too
large for a single. Of several such entries the one with the least identity is the
one that the failure is about, and the failure tells where its text cannot be read.
The collection holds what was written last, so it remains to say which given vectors
are finite: those of hashes always, those of answers if no number overflows.
-/

import MigrationGuard.Memory.Open
import MigrationGuard.Proofs.Memory.KeptVectors
import MigrationGuard.Proofs.Memory.LastTexts
import MigrationGuard.Proofs.Memory.UnitVectors

namespace MigrationGuard

open Data Decimal

variable {World Client : Type}

/-! ### Embeddings that are given -/

/-- A method that settings may ask for gives the vector for a text. -/
def IsGiven (World : Type) (vector : Embedding) : Prop :=
  ∃ (settings : MemorySettings) (ask : String → String → StateM World (Option String))
    (text : String) (world : World),
    ((RepositoryMemory.embedderOf settings ask).embed text world).1 = .ok vector

/-- The vector comes from an answer with a number that does not fit into a single. -/
def Overflows (vector : Embedding) : Prop :=
  ∃ answer numbers, ReadFrom answer numbers vector ∧ ∃ number ∈ numbers, ¬FitsSingle number

/-- A given vector is that of a hash or of an answer. -/
theorem IsGiven.cases {vector : Embedding} (given : IsGiven World vector) :
    (∃ text, vector = hashedEmbedding text) ∨
      ∃ answer, Embedder.readAnswer answer = .ok vector := by
  obtain ⟨settings, ask, text, world, embedded⟩ := given
  unfold RepositoryMemory.embedderOf at embedded
  cases method : settings.embedding with
  | hashed =>
    rw [method] at embedded
    exact .inl ⟨text, (Except.ok.inj embedded).symm⟩
  | ollama =>
    rw [method] at embedded
    dsimp only [Embedder.asking] at embedded
    rw [bind_apply] at embedded
    generalize ask _ _ world = reply at embedded
    obtain ⟨reply, later⟩ := reply
    cases reply with
    | none => exact nomatch embedded
    | some answer => exact .inr ⟨answer, embedded⟩

theorem isGiven_hashedEmbedding (world : World) (text : String) :
    IsGiven World (hashedEmbedding text) :=
  ⟨{}, fun _ _ => pure none, text, world, rfl⟩

/-- Whatever is asked may be answered so, as a service answers what it likes. -/
theorem isGiven_of_readAnswer (world : World) {answer : String} {vector : Embedding}
    (accepted : Embedder.readAnswer answer = .ok vector) : IsGiven World vector := by
  refine ⟨{ embedding := .ollama }, fun _ _ => pure (some answer), "", world, ?_⟩
  exact accepted

/-- A given vector has a number that is not finite just if it overflows. -/
theorem IsGiven.all_isFinite_iff {vector : Embedding} (given : IsGiven World vector) :
    vector.all Float32.isFinite = true ↔ ¬Overflows vector := by
  constructor
  · rintro finite ⟨answer, numbers, read, number, among, large⟩
    have flag : decide (FitsSingle number) ∈ vector.map Float32.isFinite :=
      read.map_isFinite ▸ List.mem_map_of_mem among
    obtain ⟨component, member, same⟩ := List.mem_map.mp flag
    rw [List.all_eq_true.mp finite component member] at same
    exact large (of_decide_eq_true same.symm)
  · intro fits
    obtain ⟨text, rfl⟩ | ⟨answer, accepted⟩ := given.cases
    · exact all_isFinite_hashedEmbedding text
    · obtain ⟨numbers, read⟩ := exists_readFrom accepted
      refine List.all_eq_true.mpr fun component member => ?_
      have flag : component.isFinite ∈ numbers.map fun number => decide (FitsSingle number) :=
        read.map_isFinite ▸ List.mem_map_of_mem member
      obtain ⟨number, among, same⟩ := List.mem_map.mp flag
      rw [← same, decide_eq_true_eq]
      exact not_not.mp fun large => fits ⟨answer, numbers, read, number, among, large⟩

/-! ### Searches -/

namespace Store

section
variable (store : Store) (repository : String) (collection : TextCollection) {query : Embedding}
  (asked : query ≠ []) {limit : Nat} (wanted : limit ≠ 0)
include asked wanted

/-- A search that looks at a collection at all succeeds or fails with the complaint about it. -/
theorem search_cases :
    (firstMismatch? (store.textsOf repository collection) = none ∧
      (store.search repository collection query limit).toBool = true) ∨
    ∃ mismatch, firstMismatch? (store.textsOf repository collection) = some mismatch ∧
      store.search repository collection query limit = .error (.unreadableVector mismatch) := by
  have proceeds : ¬(query.isEmpty || limit == 0) = true := by
    rw [Bool.or_eq_true, List.isEmpty_iff, beq_iff_eq]
    exact not_or.mpr ⟨asked, wanted⟩
  rw [search, if_neg proceeds]
  dsimp only
  cases firstMismatch? (store.textsOf repository collection) with
  | none => exact .inl ⟨rfl, rfl⟩
  | some mismatch => exact .inr ⟨mismatch, rfl, rfl⟩

theorem search_eq_error_iff {mismatch : Json.Mismatch} :
    store.search repository collection query limit = .error (.unreadableVector mismatch) ↔
      firstMismatch? (store.textsOf repository collection) = some mismatch := by
  obtain ⟨readable, succeeds⟩ | ⟨said, complains, fails⟩ :=
    store.search_cases repository collection asked wanted
  · rw [readable]
    refine iff_of_false (fun fails => ?_) nofun
    rw [fails] at succeeds
    exact Bool.false_ne_true succeeds
  · rw [fails, complains]
    simp only [Except.error.injEq, StoreFailure.unreadableVector.injEq, Option.some.injEq]

theorem toBool_search_iff :
    (store.search repository collection query limit).toBool = true ↔
      firstMismatch? (store.textsOf repository collection) = none := by
  obtain ⟨readable, succeeds⟩ | ⟨said, complains, fails⟩ :=
    store.search_cases repository collection asked wanted
  · exact iff_of_true succeeds readable
  · rw [fails, complains]
    exact iff_of_false Bool.false_ne_true nofun

end

/-! ### Collections of given vectors -/

namespace KeepsLast

variable {store : Store} {repository : String} {collection : TextCollection}
  {written : List TextEntry} (keeps : store.KeepsLast repository collection written)
  (given : ∀ entry ∈ written, IsGiven World entry.embedding)
include keeps given

/-- What is kept was given, so it can only be spoilt by a number that does not fit. -/
theorem not_all_isFinite_iff {entry : TextEntry}
    (isLast : lastWritten? written entry.id = some entry) :
    ¬entry.embedding.all Float32.isFinite = true ↔ Overflows entry.embedding := by
  have asGiven := given entry (keeps.mem_written (keeps.mem_textsOf_iff.mpr isLast))
  rw [asGiven.all_isFinite_iff, not_not]

theorem firstMismatch?_eq_some_iff {mismatch : Json.Mismatch} :
    Store.firstMismatch? (store.textsOf repository collection) = some mismatch ↔
      ∃ entry, lastWritten? written entry.id = some entry ∧ Overflows entry.embedding ∧
        entry.embedding.Complains mismatch ∧
          ∀ other, lastWritten? written other.id = some other →
            Overflows other.embedding → entry.id ≤ other.id := by
  rw [Store.firstMismatch?_eq_some_iff keeps.nodup_ids]
  refine exists_congr fun entry => ?_
  rw [keeps.mem_textsOf_iff]
  refine and_congr_right fun isLast => ?_
  rw [and_congr_right fun _ => forall_congr' fun other => imp_congr_ctx keeps.mem_textsOf_iff
    fun isLastToo => imp_congr_left (keeps.not_all_isFinite_iff given isLastToo)]
  exact (and_iff_right_of_imp fun fits =>
    (keeps.not_all_isFinite_iff given isLast).mp fits.1.not_all_isFinite).symm

theorem firstMismatch?_eq_none_iff :
    Store.firstMismatch? (store.textsOf repository collection) = none ↔
      ∀ entry, lastWritten? written entry.id = some entry → ¬Overflows entry.embedding := by
  rw [Store.firstMismatch?_eq_none_iff]
  refine forall_congr' fun entry => imp_congr_ctx keeps.mem_textsOf_iff fun isLast => ?_
  rw [← keeps.not_all_isFinite_iff given isLast, not_not]

end KeepsLast

end Store

namespace ClientHistory

variable {client : Client → Database (StateM World)} {store : World → Store}
  (holds : ∀ one, (client one).Holds store)
include holds

/-- A vector is accepted from an answer although some of its numbers are not finite: those that are
made of numbers that do not fit into singles. After any history of writes of given embeddings, a
search of a collection fails because an embedding cannot be read just if such a vector was written
last under some identity, and what it complains about is the one with the least such identity;
otherwise it succeeds. The complaint tells the column up to which the kept text of that vector goes
on to its first null. -/
theorem search_readable {world : World} {accepted : List StoreWrite}
    (history : ClientHistory client store world accepted) {repository : String}
    {collection : TextCollection}
    (given : ∀ entry ∈ writtenTexts repository collection accepted, IsGiven World entry.embedding)
    (one : Client) (opens : ((client one).load world).1.toBool = true) {query : Embedding}
    (asked : query ≠ []) {limit : Nat} (wanted : limit ≠ 0) :
    (∀ answer vector, Embedder.readAnswer answer = .ok vector →
      ∃ numbers, ReadFrom answer numbers vector ∧
        vector.map Float32.isFinite = numbers.map fun number => decide (FitsSingle number)) ∧
    let found := ((TextIndex.ofDatabase (client one)).search repository collection query limit
      world).1
    let last := fun entry : TextEntry =>
      lastWritten? (writtenTexts repository collection accepted) entry.id = some entry
    (∀ mismatch, found = .error (.unreadableVector mismatch) ↔ ∃ entry, last entry ∧
      Overflows entry.embedding ∧ entry.embedding.Complains mismatch ∧
        ∀ other, last other → Overflows other.embedding → entry.id ≤ other.id) ∧
    ((∃ mismatch, found = .error (.unreadableVector mismatch)) ↔
      ∃ entry, last entry ∧ Overflows entry.embedding) ∧
    (found.toBool = true ↔ ∀ entry, last entry → ¬Overflows entry.embedding) ∧
    (∀ mismatch, found = .error (.unreadableVector mismatch) → ∃ entry passed, last entry ∧
      entry.embedding.keptText.take mismatch.column = '[' :: passed ++ "null".toList) := by
  refine ⟨fun answer vector accepts => ?_, ?_⟩
  · obtain ⟨numbers, read⟩ := exists_readFrom accepts
    exact ⟨numbers, read, read.map_isFinite⟩
  · intro found last
    -- What the collection holds was written last under its identity, so it was given.
    have keeps := keepsLast holds history repository collection
    have same : found = (store world).search repository collection query limit :=
      (holds one).query_of_opens _ opens
    have readable : Store.firstMismatch? ((store world).textsOf repository collection) = none ↔
        ∀ entry, last entry → ¬Overflows entry.embedding :=
      keeps.firstMismatch?_eq_none_iff given
    rw [same]
    refine ⟨fun mismatch => ?_, ?_, ?_, fun mismatch fails => ?_⟩
    · rw [Store.search_eq_error_iff _ _ _ asked wanted]
      exact keeps.firstMismatch?_eq_some_iff given
    · simp only [Store.search_eq_error_iff _ _ _ asked wanted, ← Option.ne_none_iff_exists', ne_eq,
        readable, not_forall, not_not, exists_prop]
    · rw [Store.toBool_search_iff _ _ _ asked wanted, readable]
    · rw [Store.search_eq_error_iff _ _ _ asked wanted] at fails
      obtain ⟨entry, isLast, -, complains, -⟩ :=
        (keeps.firstMismatch?_eq_some_iff given).mp fails
      obtain ⟨passed, text⟩ := complains.take_keptText
      exact ⟨entry, passed, isLast, text⟩

end ClientHistory

/-- An answer with a number that is finite but too large for a single. -/
def largeAnswer : String :=
  "\x7b\"embedding\": [1e39]\x7d"

/-- The vector that it gives. Infinity divided by itself is no number. -/
def spoiltVector : Embedding :=
  [0.0 / 0.0]

/-- A rule with a hashed embedding, which can always be read. -/
def hashedRule : TextEntry :=
  ⟨"a", "no tax", .record [], hashedEmbedding "no tax"⟩

/-- A rule with the vector, which is stored as any other one. -/
def spoiltRule : TextEntry :=
  ⟨"b", "gross prices", .record [], spoiltVector⟩

/-- The rules are written one after the other, the readable one first. -/
def spoiltWrites : List StoreWrite :=
  [.texts "shop" .rules [hashedRule], .texts "shop" .rules [spoiltRule]]

/-- The store after some writes, none of which is refused. -/
def storeAfter (writes : List StoreWrite) : Store :=
  writes.foldl (fun store write => write.after store) .empty

/-- What a search for rules about taxes finds, or what it complains about. -/
def foundRules (store : Store) : Except StoreFailure (List TextHit) :=
  ((TextIndex.ofDatabase Database.here).search "shop" .rules (hashedEmbedding "tax") 5 store).1

/-- What a reader says about the vector: its null ends with the fifth character. -/
def spoiltMismatch : Json.Mismatch :=
  ⟨"null", "f32", 1, 5⟩

/-- What a search complains about when the second rule has been written. -/
theorem search_spoiltWrites :
    foundRules (storeAfter spoiltWrites) = .error (.unreadableVector spoiltMismatch) := by
  have kept : (storeAfter spoiltWrites).textsOf "shop" .rules = [hashedRule, spoiltRule] := rfl
  have complains : spoiltRule.embedding.Complains spoiltMismatch :=
    ⟨[], 0.0 / 0.0, [], rfl, rfl, by decide +kernel, rfl⟩
  have finite := all_isFinite_hashedEmbedding "no tax"
  have asked : hashedEmbedding "tax" ≠ [] := by decide +kernel
  have searched : foundRules (storeAfter spoiltWrites) =
      (storeAfter spoiltWrites).search "shop" .rules (hashedEmbedding "tax") 5 :=
    Database.holds_here.query_of_opens _ rfl
  rw [searched, Store.search_eq_error_iff _ _ _ asked (by decide), kept,
    Store.firstMismatch?_eq_some_iff (by decide)]
  refine ⟨spoiltRule, List.mem_cons_of_mem _ List.mem_cons_self, complains, ?_⟩
  rintro other member spoilt
  obtain rfl | rfl := List.mem_pair.mp member
  · dsimp only [hashedRule] at spoilt
    exact absurd finite spoilt
  · exact le_rfl

/-- When the second rule has been written, a search fails, because the vector of this rule
overflows. -/
theorem spoiltWrites_search_readable :
    (∀ mismatch, foundRules (storeAfter spoiltWrites) = .error (.unreadableVector mismatch) ↔
      ∃ entry, lastWritten? (writtenTexts "shop" .rules spoiltWrites) entry.id = some entry ∧
        Overflows entry.embedding ∧ entry.embedding.Complains mismatch ∧
          ∀ other, lastWritten? (writtenTexts "shop" .rules spoiltWrites) other.id = some other →
            Overflows other.embedding → entry.id ≤ other.id) ∧
    foundRules (storeAfter spoiltWrites) = .error (.unreadableVector spoiltMismatch) := by
  have written : writtenTexts "shop" .rules spoiltWrites = [hashedRule, spoiltRule] := rfl
  have given : ∀ entry ∈ writtenTexts "shop" .rules spoiltWrites,
      IsGiven Store entry.embedding := by
    intro entry among
    rw [written] at among
    obtain rfl | rfl := List.mem_pair.mp among
    · dsimp only [hashedRule]
      exact isGiven_hashedEmbedding .empty "no tax"
    · have read : Embedder.readAnswer largeAnswer = .ok spoiltVector := by decide +kernel
      exact isGiven_of_readAnswer .empty read
  have begins : ClientHistory (fun _ : Unit => Database.here) (fun store => store) .empty [] :=
    .begins rfl
  have history : ClientHistory (fun _ : Unit => Database.here) (fun store => store)
      (storeAfter spoiltWrites) spoiltWrites :=
    (begins.succeeds () _ rfl).succeeds () _ rfl
  have holds : ∀ one, (fun _ : Unit => Database.here) one |>.Holds fun store => store :=
    fun _ => Database.holds_here
  have asked : hashedEmbedding "tax" ≠ [] := by decide +kernel
  have known := (ClientHistory.search_readable holds history given () rfl asked
    (show 5 ≠ 0 by decide)).2.1
  exact ⟨known, search_spoiltWrites⟩

/-- A vector is accepted whose only number is not finite. Before it is written, the first rule is
found; afterwards none is, and the complaint is about the null that is kept for this number. -/
theorem largeAnswer_spoils :
    Embedder.readAnswer largeAnswer = .ok spoiltVector ∧
      spoiltVector.map Float32.isFinite = [false] ∧
      (foundRules (storeAfter (spoiltWrites.take 1))).map (List.map TextHit.id) = .ok ["a"] ∧
      foundRules (storeAfter spoiltWrites) = .error (.unreadableVector spoiltMismatch) ∧
      (StoreFailure.unreadableVector spoiltMismatch).message =
        "json error: invalid type: null, expected f32 at line 1 column 5" := by
  refine ⟨?_, ?_, ?_, search_spoiltWrites, ?_⟩ <;> decide +kernel

end MigrationGuard
