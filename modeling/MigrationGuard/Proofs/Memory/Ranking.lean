/-
This file says what a search in a collection of texts finds. The entries that were
written last and are similar enough stand in one order: the most similar first,
and those that are as similar by their identities. A search gives as many of the
first ones as are asked for. The order is described by when one hit stands before
another, and not by the sort that a store makes; identities are distinct, so it
leaves no two hits undecided, and the answer to a question is determined by what
was written, whatever the history of the collection was. A search first takes as
many hits as are asked for and drops those below the threshold afterwards. This
makes no difference, because what stands before an entry that reaches the
threshold reaches it too. Similarities are singles, of which those that are no
numbers stand in no order, so the theorems ask that none of them occurs.
-/

import Mathlib.Data.String.Basic
import MigrationGuard.Proofs.Decimal.Singles
import MigrationGuard.Proofs.Memory.KeptVectors
import MigrationGuard.Proofs.Memory.LastTexts

namespace MigrationGuard

open Decimal

variable {World Client : Type}

/-! ### The order of hits -/

/-- A hit stands before another: it is more similar, or it is as similar and its identity comes
first. The order of an answer is told by this and not by how hits are sorted. -/
def TextHit.Before (one other : TextHit) : Prop :=
  other.similarity < one.similarity ∨ one.similarity == other.similarity ∧ one.id < other.id

/-- What hits are ordered by: the similarity downwards and the identity upwards. Such places stand
in a linear order. -/
def TextHit.place (hit : TextHit) : Rankᵒᵈ ×ₗ String :=
  toLex (OrderDual.toDual (rank hit.similarity), hit.id)

section
variable {one other : TextHit} (isNumber : one.similarity.isNaN = false)
  (isNumberToo : other.similarity.isNaN = false)
include isNumber isNumberToo

theorem TextHit.before_iff : one.Before other ↔ one.place < other.place := by
  rw [Before, lt_iff_rank_lt isNumberToo isNumber, beq_iff_rank_eq isNumber isNumberToo, place,
    place, Prod.Lex.toLex_lt_toLex, OrderDual.toDual_lt_toDual, EmbeddingLike.apply_eq_iff_eq]

theorem Store.hitAtMost_eq : Store.hitAtMost one other = decide (one.place ≤ other.place) := by
  have first := lt_iff_rank_lt isNumberToo isNumber
  have second := lt_iff_rank_lt isNumber isNumberToo
  have places : one.place ≤ other.place ↔ rank other.similarity < rank one.similarity ∨
      rank one.similarity = rank other.similarity ∧ one.id ≤ other.id := by
    rw [TextHit.place, TextHit.place, Prod.Lex.toLex_le_toLex, OrderDual.toDual_lt_toDual,
      EmbeddingLike.apply_eq_iff_eq]
  rw [hitAtMost, Bool.eq_iff_iff, decide_eq_true_iff, places]
  split_ifs with isMore isLess
  · exact iff_of_true rfl (Or.inl (first.mp isMore))
  · refine iff_of_false nofun ?_
    rintro (more | ⟨same, -⟩)
    · exact lt_asymm more (second.mp isLess)
    · exact (second.mp isLess).ne same
  · have same : rank one.similarity = rank other.similarity :=
      le_antisymm (not_lt.mp (mt first.mpr isMore)) (not_lt.mp (mt second.mpr isLess))
    rw [Text.atMost_iff, same]
    exact ⟨fun ids => Or.inr ⟨rfl, ids⟩, fun cases => (cases.resolve_left (lt_irrefl _)).2⟩

/-- What stands before a hit that reaches a threshold reaches it too, as it is no less similar. -/
theorem TextHit.Before.reaches (before : one.Before other) {minimum : Float32}
    (reached : minimum ≤ other.similarity) : minimum ≤ one.similarity := by
  have minimumIsNumber := (isNaN_of_le reached).1
  have reachedRank := (le_iff_rank_le minimumIsNumber isNumberToo).mp reached
  refine (le_iff_rank_le minimumIsNumber isNumber).mpr (reachedRank.trans ?_)
  obtain more | ⟨same, -⟩ := before
  · exact ((lt_iff_rank_lt isNumberToo isNumber).mp more).le
  · exact ((beq_iff_rank_eq isNumber isNumberToo).mp same).ge

end

/-! ### Sorted hits -/

/-- Hits with distinct identities are sorted into their order, with no two of them left undecided.
-/
theorem Store.pairwise_before_mergeSort {hits : List TextHit}
    (numbers : ∀ hit ∈ hits, hit.similarity.isNaN = false)
    (distinct : (hits.map TextHit.id).Nodup) :
    (hits.mergeSort hitAtMost).Pairwise TextHit.Before := by
  -- The comparison is an order among numbers only, while places are always in order.
  have byPlace : hits.mergeSort hitAtMost =
      hits.mergeSort fun one other => decide (one.place ≤ other.place) := by
    have same := List.map_mergeSort (f := fun hit : TextHit => hit) (l := hits)
      fun one member other memberToo => hitAtMost_eq (numbers one member) (numbers other memberToo)
    simpa only [List.map_id'] using same
  have sorted : (hits.mergeSort hitAtMost).Pairwise fun one other => one.place ≤ other.place := by
    rw [byPlace]
    refine List.Pairwise.imp of_decide_eq_true (List.pairwise_mergeSort ?_ ?_ hits)
    · intro one other third first second
      exact decide_eq_true ((of_decide_eq_true first).trans (of_decide_eq_true second))
    · intro one other
      rw [Bool.or_eq_true, decide_eq_true_iff, decide_eq_true_iff]
      exact le_total _ _
  have same := List.mergeSort_perm hits hitAtMost
  have apart : (hits.mergeSort hitAtMost).Pairwise fun one other => one.id ≠ other.id :=
    List.pairwise_map.mp ((same.map TextHit.id).nodup_iff.mpr distinct)
  refine (sorted.and apart).imp_of_mem fun {one other} member memberToo both => ?_
  rw [TextHit.before_iff (numbers one (same.mem_iff.mp member))
    (numbers other (same.mem_iff.mp memberToo))]
  refine lt_of_le_of_ne both.1 fun equal => both.2 ?_
  exact congrArg (fun place => (ofLex place).2) equal

/-- Where a test holds before each item for which it holds, it may be done before or after the first
items are taken. -/
theorem filter_take_of_pairwise {Item : Type} {passes : Item → Bool} {items : List Item}
    (closed : items.Pairwise fun one other => passes other → passes one) (count : Nat) :
    (items.take count).filter passes = (items.filter passes).take count := by
  induction items generalizing count with
  | nil => rw [List.take_nil, List.filter_nil, List.take_nil]
  | cons item items inductionHypothesis =>
    obtain ⟨first, rest⟩ := List.pairwise_cons.mp closed
    cases count with
    | zero => rfl
    | succ count =>
      rw [List.take_succ_cons]
      by_cases goes : passes item
      · rw [List.filter_cons_of_pos goes, List.filter_cons_of_pos goes, List.take_succ_cons,
          inductionHypothesis rest]
      · have none : ∀ other ∈ items, ¬passes other := fun other member =>
          mt (first other member) goes
        rw [List.filter_cons_of_neg goes, List.filter_cons_of_neg goes,
          List.filter_eq_nil_iff.mpr none, List.take_nil]
        exact List.filter_eq_nil_iff.mpr fun other member => none other (List.mem_of_mem_take member)

/-! ### Searches -/

/-- The hit is that of an entry that was written last under its identity and whose similarity to a
vector is defined and reaches the threshold. -/
def Qualifies (written : List TextEntry) (query : Embedding) (minimum : Float32)
    (hit : TextHit) : Prop :=
  ∃ entry, lastWritten? written entry.id = some entry ∧
    cosine? query entry.embedding = some hit.similarity ∧ minimum ≤ hit.similarity ∧
      hit.id = entry.id ∧ hit.text = entry.text ∧ hit.metadata = entry.metadata

namespace Store

theorem hit?_eq_some {query : Embedding} {entry : TextEntry} {hit : TextHit} :
    hit? query entry = some hit ↔ cosine? query entry.embedding = some hit.similarity ∧
      hit.id = entry.id ∧ hit.text = entry.text ∧ hit.metadata = entry.metadata := by
  obtain ⟨id, text, metadata, similarity⟩ := hit
  rw [hit?, Option.map_eq_some_iff]
  constructor
  · rintro ⟨found, defined, same⟩
    obtain ⟨rfl, rfl, rfl, rfl⟩ := TextHit.mk.inj same
    exact ⟨defined, rfl, rfl, rfl⟩
  · rintro ⟨defined, sameId, sameText, sameMetadata⟩
    exact ⟨similarity, defined, congr (congr (congrArg₂ TextHit.mk sameId.symm sameText.symm)
      sameMetadata.symm) rfl⟩

variable {store : Store} {repository : String} {collection : TextCollection}

/-- Among entries with finite embeddings, a search sorts the hits and takes the first ones. -/
theorem search_eq
    (finite : ∀ entry ∈ store.textsOf repository collection,
      entry.embedding.all Float32.isFinite = true)
    (query : Embedding) (limit : Nat) :
    store.search repository collection query limit =
      .ok ((((store.textsOf repository collection).filterMap (hit? query)).mergeSort
        hitAtMost).take limit) := by
  unfold search
  split
  case isTrue nothing =>
    obtain empty | none := Bool.or_eq_true _ _ ▸ nothing
    · have noHits : (store.textsOf repository collection).filterMap (hit? query) = [] := by
        refine List.filterMap_eq_nil_iff.mpr fun entry _ => ?_
        rw [List.isEmpty_iff.mp empty, hit?, cosine?, if_pos (Or.inr rfl), Option.map_none]
      rw [noHits, List.mergeSort_nil, List.take_nil]
    · rw [eq_of_beq none, List.take_zero]
  case isFalse =>
    dsimp only
    rw [firstMismatch?_eq_none_iff.mpr finite]

/-- The hits that reach a threshold are the first ones of an order of all hits that do. -/
theorem KeepsLast.exists_ranking {written : List TextEntry}
    (keeps : store.KeepsLast repository collection written) {query : Embedding}
    (numbers : ∀ entry ∈ written, ∀ similarity ∈ cosine? query entry.embedding,
      similarity.isNaN = false)
    (minimum : Float32) :
    ∃ ranking : List TextHit, ranking.Pairwise TextHit.Before ∧
      (∀ hit, hit ∈ ranking ↔ Qualifies written query minimum hit) ∧
      ∀ limit, ((((store.textsOf repository collection).filterMap (hit? query)).mergeSort
        hitAtMost).take limit).filter (fun hit => minimum ≤ hit.similarity) =
          ranking.take limit := by
  have found : ∀ hit, hit ∈ (store.textsOf repository collection).filterMap (hit? query) ↔
      ∃ entry, lastWritten? written entry.id = some entry ∧ hit? query entry = some hit := by
    intro hit
    rw [List.mem_filterMap]
    exact exists_congr fun entry => and_congr_left fun _ => keeps.mem_textsOf_iff
  have isNumber : ∀ hit ∈ (store.textsOf repository collection).filterMap (hit? query),
      hit.similarity.isNaN = false := by
    intro hit member
    obtain ⟨entry, among, made⟩ := List.mem_filterMap.mp member
    exact numbers entry (keeps.mem_written among) _ (hit?_eq_some.mp made).1
  have distinct : (((store.textsOf repository collection).filterMap (hit? query)).map
      TextHit.id).Nodup := by
    refine List.pairwise_map.mpr (List.pairwise_filterMap.mpr
      ((List.pairwise_map.mp keeps.nodup_ids).imp ?_))
    intro entry other apart hit made hitToo madeToo
    rw [(hit?_eq_some.mp made).2.1, (hit?_eq_some.mp madeToo).2.1]
    exact apart
  generalize (store.textsOf repository collection).filterMap (hit? query) = hits
    at found isNumber distinct ⊢
  have sorted := pairwise_before_mergeSort isNumber distinct
  have same := List.mergeSort_perm hits hitAtMost
  refine ⟨(hits.mergeSort hitAtMost).filter fun hit => minimum ≤ hit.similarity,
    sorted.sublist List.filter_sublist, fun hit => ?_, fun limit => ?_⟩
  · rw [List.mem_filter, same.mem_iff, found, decide_eq_true_iff]
    constructor
    · rintro ⟨⟨entry, last, made⟩, reached⟩
      obtain ⟨defined, others⟩ := hit?_eq_some.mp made
      exact ⟨entry, last, defined, reached, others⟩
    · rintro ⟨entry, last, defined, reached, others⟩
      exact ⟨⟨entry, last, hit?_eq_some.mpr ⟨defined, others⟩⟩, reached⟩
  · refine filter_take_of_pairwise (sorted.imp_of_mem fun {one other} member memberToo before => ?_)
      limit
    rw [decide_eq_true_iff, decide_eq_true_iff]
    exact before.reaches (isNumber one (same.mem_iff.mp member))
      (isNumber other (same.mem_iff.mp memberToo))

end Store

/-! ### Searches of a memory -/

namespace RepositoryMemory

variable {memory : RepositoryMemory (StateM World)} {store : World → Store}

/-- A search embeds the question and keeps those of the found texts that are similar enough. -/
theorem search_apply (finds : memory.index = .ofDatabase memory.database)
    (holds : memory.database.Holds store) {collection : TextCollection} {question : String}
    (asked : Text.trimmed question ≠ "") {world later : World} {query : Embedding}
    (embedded : memory.embedder.embed (Text.trimmed question) world = (.ok query, later))
    (opens : (memory.database.load later).1.toBool = true)
    (finite : ∀ entry ∈ (store later).textsOf memory.id collection,
      entry.embedding.all Float32.isFinite = true) (limit : Nat) :
    (memory.search collection question limit world).1 =
      .ok ((((((store later).textsOf memory.id collection).filterMap (Store.hit? query)).mergeSort
        Store.hitAtMost).take limit).filter fun hit => memory.minSimilarity ≤ hit.similarity) := by
  rw [RepositoryMemory.search]
  split_ifs with nothing
  · rw [Bool.or_eq_true, beq_iff_eq, beq_iff_eq] at nothing
    rw [nothing.resolve_left asked, List.take_zero]
    rfl
  · rw [bind_apply, embedded, finds]
    show (((memory.database.query _ >>= _) : StateM World _) later).1 = _
    rw [bind_apply, holds.query_of_opens _ opens, Store.search_eq finite]
    rfl

end RepositoryMemory

namespace ClientHistory

variable {client : Client → Database (StateM World)} {store : World → Store}
  (holds : ∀ one, (client one).Holds store)
include holds

/-- After any history of writes a collection holds what was written last under each identity, and
as many entries as identities. A search for a question gives the first ones of all entries that
are similar enough, the most similar first, and every other one ranks behind them. -/
theorem search_ranks {world later : World} {accepted : List StoreWrite}
    (history : ClientHistory client store world accepted)
    {memory : RepositoryMemory (StateM World)}
    (finds : memory.index = .ofDatabase memory.database) (reads : memory.database.Holds store)
    {question : String} (asked : Text.trimmed question ≠ "") {query : Embedding}
    (embedded : memory.embedder.embed (Text.trimmed question) world = (.ok query, later))
    (same : store later = store world) (opens : (memory.database.load later).1.toBool = true)
    {collection : TextCollection}
    (finite : ∀ entry ∈ writtenTexts memory.id collection accepted,
      entry.embedding.all Float32.isFinite = true)
    (numbers : ∀ entry ∈ writtenTexts memory.id collection accepted,
      ∀ similarity ∈ cosine? query entry.embedding, similarity.isNaN = false) :
    (∀ repository kind,
      (store later).KeepsLast repository kind (writtenTexts repository kind accepted) ∧
      (memory.index.count repository kind later).1 =
        .ok ((writtenTexts repository kind accepted).map TextEntry.id).toFinset.card) ∧
    ∃ ranking : List TextHit, ranking.Pairwise TextHit.Before ∧
      (∀ hit, hit ∈ ranking ↔
        Qualifies (writtenTexts memory.id collection accepted) query memory.minSimilarity hit) ∧
      ∀ limit,
        (memory.search collection question limit world).1 = .ok (ranking.take limit) ∧
        ∀ hit ∈ ranking, hit ∉ ranking.take limit →
          ∀ found ∈ ranking.take limit, found.Before hit := by
  have keeps : ∀ repository kind, (store later).KeepsLast repository kind
      (writtenTexts repository kind accepted) :=
    fun repository kind => same ▸ keepsLast holds history repository kind
  refine ⟨fun repository kind => ⟨keeps repository kind, ?_⟩, ?_⟩
  · rw [finds]
    show (memory.database.query _ later).1 = _
    rw [reads.query_of_opens _ opens, (keeps repository kind).count]
  · have current := keeps memory.id collection
    obtain ⟨ranking, sorted, members, first⟩ :=
      current.exists_ranking numbers memory.minSimilarity
    refine ⟨ranking, sorted, members, fun limit => ⟨?_, fun hit member missing found among => ?_⟩⟩
    · rw [← first limit]
      exact RepositoryMemory.search_apply finds reads asked embedded opens
        (fun entry member => finite entry (current.mem_written member)) limit
    · rw [← List.take_append_drop limit ranking] at sorted member
      exact (List.pairwise_append.mp sorted).2.2 found among hit
        ((List.mem_append.mp member).resolve_left missing)

end ClientHistory

/-- Two batches of rules of the shop. The first one writes a rule twice, the second one writes a rule
of the first one anew. -/
def ruleBatches : List StoreWrite :=
  [.texts "shop" .rules [⟨"b", "no tax", .record [], [0.0, 1.0]⟩,
      ⟨"a", "round down", .record [], [0.0, 1.0]⟩,
      ⟨"b", "no tax abroad", .record [], [1.0, 1.0]⟩],
    .texts "shop" .rules [⟨"c", "gross prices", .record [], [1.0, 0.0]⟩,
      ⟨"a", "round up", .record [], [1.0, 0.0]⟩]]

/-- The store after the batches, in which two of the rules have been written anew. -/
def ruleStore : Store :=
  ruleBatches.foldl (fun store write => write.after store) .empty

/-- The memory of the shop, with a method that embeds all texts alike, so every question is the same
to it. -/
def ruleMemory : RepositoryMemory (StateM Store) :=
  { RepositoryMemory.ofStore "shop" with embedder := ⟨"alike", fun _ => return .ok [1.0, 0.0]⟩ }

/-- Of the five entries three are left, and a search ranks them as they were written last. -/
theorem ruleStore_search_ranks :
    ClientHistory (fun _ : Unit => Database.here) (fun store => store) ruleStore ruleBatches ∧
      ((∀ repository kind,
        ruleStore.KeepsLast repository kind (writtenTexts repository kind ruleBatches) ∧
        (ruleMemory.index.count repository kind ruleStore).1 =
          .ok ((writtenTexts repository kind ruleBatches).map TextEntry.id).toFinset.card) ∧
      ∃ ranking : List TextHit, ranking.Pairwise TextHit.Before ∧
        (∀ hit, hit ∈ ranking ↔
          Qualifies (writtenTexts "shop" .rules ruleBatches) [1.0, 0.0] 0.0 hit) ∧
        ∀ limit,
          (ruleMemory.search .rules "which prices?" limit ruleStore).1 =
            .ok (ranking.take limit) ∧
          ∀ hit ∈ ranking, hit ∉ ranking.take limit →
            ∀ found ∈ ranking.take limit, found.Before hit) ∧
      (ruleMemory.index.count "shop" .rules ruleStore).1.toOption = some 3 := by
  have holds : ∀ one, (fun _ : Unit => Database.here) one |>.Holds fun store => store :=
    fun _ => Database.holds_here
  have begins : ClientHistory (fun _ : Unit => Database.here) (fun store => store) .empty [] :=
    .begins rfl
  have history : ClientHistory (fun _ : Unit => Database.here) (fun store => store) ruleStore
      ruleBatches :=
    (begins.succeeds () _ rfl).succeeds () _ rfl
  refine ⟨history, ?_, by decide +kernel⟩
  exact ClientHistory.search_ranks holds history rfl Database.holds_here (by decide +kernel) rfl
    rfl rfl (by decide +kernel) (by decide +kernel)

end MigrationGuard
