/-
This file says what a collection of texts holds after any history of writes: under
each identity the entry that was written last, in whichever batch and at whichever
place of it, and nothing else. What is written to other collections or fails makes
no difference. So a collection has as many entries as identities were ever
written. All collections of a store are rows of one table; those of one collection
are gathered from what was written to it, entry by entry, and this is kept by
every write of a client. What is gathered has the last of the rows with a key, as
a later row takes the place of the first one and keeps only its identity. The
ranking of searches builds on this, as it needs to know which entries there are,
and only that.
-/

import Mathlib.Data.Finset.Card
import MigrationGuard.Proofs.Memory.Registry

namespace MigrationGuard

variable {World Client : Type}

/-! ### What was written -/

/-- The entries that a write puts into a collection of a repository. -/
def StoreWrite.entriesIn (repository : String) (collection : TextCollection) :
    StoreWrite → List TextEntry
  | .texts target kind entries =>
    if target = repository ∧ kind = collection then entries else []
  | _ => []

/-- The entries that writes put into a collection of a repository, in their order. -/
def writtenTexts (repository : String) (collection : TextCollection)
    (writes : List StoreWrite) : List TextEntry :=
  writes.flatMap (StoreWrite.entriesIn repository collection)

/-- The entry that was written last under an identity, if any was. Earlier ones are gone. -/
def lastWritten? (written : List TextEntry) (id : String) : Option TextEntry :=
  (Keyed.withKey TextEntry.id id written).getLast?

/-- The collection holds what was written last under each identity, and has one entry for each. -/
structure Store.KeepsLast (store : Store) (repository : String) (collection : TextCollection)
    (written : List TextEntry) : Prop where
  /-- Under an identity there is the last entry that was written, and no other one. -/
  last : ∀ id, (store.textsOf repository collection).filter (fun entry => entry.id = id) =
    (lastWritten? written id).toList
  /-- There is one entry for each identity. -/
  count : (store.textsOf repository collection).length = (written.map TextEntry.id).toFinset.card

/-! ### One entry -/

/-- A later entry takes the place of the first one, with all that it says. -/
def TextEntry.renew (first later : TextEntry) : TextEntry :=
  { later with id := first.id }

theorem TextEntry.id_renew (first later : TextEntry) : (first.renew later).id = first.id :=
  rfl

theorem TextEntry.renew_eq {first later : TextEntry} (same : first.id = later.id) :
    first.renew later = later := by
  rw [renew, same]

namespace Store

/-- Among the rows of one collection an entry goes to the row of its identity. -/
theorem map_entry_merge {repository : String} {collection : TextCollection}
    {rows : List StoredText} {entry : TextEntry}
    (alike : ∀ row ∈ rows, row.repository = repository ∧ row.collection = collection) :
    (Keyed.merge StoredText.key StoredText.renew rows ⟨repository, collection, entry⟩).map
        StoredText.entry =
      Keyed.merge TextEntry.id TextEntry.renew (rows.map StoredText.entry) entry := by
  induction rows with
  | nil => rfl
  | cons row rows inductionHypothesis =>
    obtain ⟨sameRepository, sameCollection⟩ := alike row List.mem_cons_self
    have same : row.key = StoredText.key ⟨repository, collection, entry⟩ ↔
        row.entry.id = entry.id := by
      simp only [StoredText.key, Prod.mk.injEq, sameRepository, sameCollection, true_and]
    rw [List.map_cons, Keyed.merge, Keyed.merge]
    split_ifs with isRow isEntry isEntry
    · rfl
    · exact absurd (same.mp isRow) isEntry
    · exact absurd (same.mpr isEntry) isRow
    · rw [List.map_cons, inductionHypothesis fun other among => alike other
        (List.mem_cons_of_mem _ among)]

/-- An entry that is put into a collection goes there and nowhere else. -/
theorem textsOf_putText (store : Store) (repository target : String)
    (collection kind : TextCollection) (entry : TextEntry) :
    (store.putText target kind entry).textsOf repository collection =
      if target = repository ∧ kind = collection then
        Keyed.merge TextEntry.id TextEntry.renew (store.textsOf repository collection) entry
      else store.textsOf repository collection := by
  have told : ∀ first later : StoredText, first.key = later.key →
      (first.repository == repository && first.collection == collection) =
        (later.repository == repository && later.collection == collection) := by
    intro first later same
    obtain ⟨sameRepository, others⟩ := Prod.mk.inj same
    rw [sameRepository, (Prod.mk.inj others).1]
  unfold textsOf
  rw [texts_putText]
  split_ifs with here
  · obtain ⟨rfl, rfl⟩ := here
    rw [Keyed.filter_merge StoredText.key_renew told (by simp)]
    refine map_entry_merge fun row member => ?_
    simpa using (List.mem_filter.mp member).2
  · rw [Keyed.filter_merge_of_not StoredText.key_renew told (by simpa using here)]

/-- The entries of a batch are put into the collection one after the other. -/
theorem textsOf_putTexts (store : Store) (repository target : String)
    (collection kind : TextCollection) (entries : List TextEntry) :
    (store.putTexts target kind entries).textsOf repository collection =
      ((StoreWrite.texts target kind entries).entriesIn repository collection).foldl
        (Keyed.merge TextEntry.id TextEntry.renew) (store.textsOf repository collection) := by
  rw [StoreWrite.entriesIn]
  induction entries generalizing store with
  | nil => rw [ite_self]; rfl
  | cons entry entries inductionHypothesis =>
    refine (inductionHypothesis (store.putText target kind entry)).trans ?_
    rw [textsOf_putText]
    split_ifs <;> rfl

end Store

/-! ### All writes -/

/-- What a write leaves of a collection is what was there, with the entries that it puts there. -/
theorem StoreWrite.textsOf_after (write : StoreWrite) (store : Store) (repository : String)
    (collection : TextCollection) :
    (write.after store).textsOf repository collection =
      (write.entriesIn repository collection).foldl (Keyed.merge TextEntry.id TextEntry.renew)
        (store.textsOf repository collection) := by
  cases write with
  | texts target kind entries => exact store.textsOf_putTexts repository target collection kind _
  | _ => rfl

namespace ClientHistory

variable {client : Client → Database (StateM World)} {store : World → Store}
  (holds : ∀ one, (client one).Holds store)
include holds

/-- At every point of a history a collection is gathered from what was written to it. -/
theorem textsOf_eq_gather {world : World} {accepted : List StoreWrite}
    (history : ClientHistory client store world accepted) (repository : String)
    (collection : TextCollection) :
    (store world).textsOf repository collection =
      Keyed.gather TextEntry.id TextEntry.renew (writtenTexts repository collection accepted) := by
  induction history with
  | begins empty => rw [empty]; rfl
  | passes _ same inductionHypothesis => rw [same, inductionHypothesis]
  | looks one look _ inductionHypothesis => rw [store_of_query holds, inductionHypothesis]
  | succeeds one write _ done inductionHypothesis =>
    rw [StoreWrite.eq_after ((holds one).accepted_of_done done), write.textsOf_after,
      inductionHypothesis, writtenTexts, writtenTexts, List.flatMap_append, List.flatMap_singleton,
      Keyed.gather, Keyed.gather, List.foldl_append]
  | fails one write _ failed inductionHypothesis =>
    rw [(holds one).store_of_failed failed, inductionHypothesis]

/-- At every point of a history a collection holds what was written last under each identity. -/
theorem keepsLast {world : World} {accepted : List StoreWrite}
    (history : ClientHistory client store world accepted) (repository : String)
    (collection : TextCollection) :
    (store world).KeepsLast repository collection
      (writtenTexts repository collection accepted) := by
  have gathered := textsOf_eq_gather holds history repository collection
  generalize writtenTexts repository collection accepted = written at gathered ⊢
  have distinct := Keyed.nodup_keys_gather TextEntry.id_renew written
  refine ⟨fun id => ?_, ?_⟩
  · rw [gathered]
    refine (Keyed.withKey_of_nodup distinct id).trans (congrArg Option.toList ?_)
    rw [Keyed.find_gather TextEntry.id_renew]
    refine Keyed.absorbed?_eq_getLast? _ fun first among later amongToo => ?_
    exact TextEntry.renew_eq ((of_decide_eq_true (List.mem_filter.mp among).2).trans
      (of_decide_eq_true (List.mem_filter.mp amongToo).2).symm)
  · rw [gathered, ← List.length_map, ← List.toFinset_card_of_nodup distinct]
    refine congrArg Finset.card (Finset.ext fun id => ?_)
    rw [List.mem_toFinset, List.mem_toFinset, Keyed.mem_keys_gather TextEntry.id_renew]

end ClientHistory

namespace Store.KeepsLast

variable {store : Store} {repository : String} {collection : TextCollection}
  {written : List TextEntry} (keeps : store.KeepsLast repository collection written)
include keeps

/-- An entry is there just if it was written last under its identity, so the writes tell all
entries. -/
theorem mem_textsOf_iff {entry : TextEntry} :
    entry ∈ store.textsOf repository collection ↔ lastWritten? written entry.id = some entry := by
  have found : entry ∈ store.textsOf repository collection ↔
      entry ∈ (store.textsOf repository collection).filter fun other => other.id = entry.id := by
    rw [List.mem_filter, decide_eq_true_eq, and_iff_left rfl]
  rw [found, keeps.last, Option.mem_toList]

theorem mem_written {entry : TextEntry} (member : entry ∈ store.textsOf repository collection) :
    entry ∈ written :=
  (List.mem_filter.mp (List.mem_of_getLast? (keeps.mem_textsOf_iff.mp member))).1

/-- The entries have distinct identities, so identities can break ties. -/
theorem nodup_ids : ((store.textsOf repository collection).map TextEntry.id).Nodup := by
  refine List.nodup_iff_count_le_one.mpr fun id => ?_
  have single : ((lastWritten? written id).toList).length ≤ 1 := by
    cases lastWritten? written id <;> simp
  rw [← keeps.last, ← List.countP_eq_length_filter] at single
  rw [List.count, List.countP_map]
  exact single

end Store.KeepsLast

end MigrationGuard
