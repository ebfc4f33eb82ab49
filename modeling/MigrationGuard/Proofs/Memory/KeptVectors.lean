/-
This file says what the reader of a kept vector complains about. A vector is kept
as a list of numbers on one line, and a number that is not finite stands there as
a null. The reader gets no further than the first null and tells the column in
which that null ends. So which complaint a vector gives rise to can be read off
its text, and a vector gives rise to none just if all of its numbers are finite. A
collection is read by the identities of its entries, so of several vectors that
cannot be read the one with the least identity is complained about. The
definitions count characters without making the text; the lemmas here put the text
beside them, so that a column is shown to be the place in the text where the null
ends.
-/

import Mathlib.Data.String.Basic
import MigrationGuard.Memory.Store
import MigrationGuard.Proofs.Decimal.SingleFields
import MigrationGuard.Text.Search

namespace MigrationGuard

open Data Decimal

/-! ### Texts of vectors -/

/-- What is not finite has no spelling among numbers, and a null stands for it. -/
theorem Data.Json.singleText_of_not_finite {number : Float32} (infinite : ¬number.isFinite) :
    Json.singleText number = "null" := by
  have full : number.toBits.toNat / 2 ^ 23 % 2 ^ 8 = 2 ^ 8 - 1 :=
    not_not.mp (mt isFinite_of_field infinite)
  simp only [Json.singleText, readSingle, readFields, Nat.pow_eq, beq_iff_eq]
  rw [if_pos full]
  split <;> rfl

namespace Embedding

/-- The numbers of a vector as they are kept, with commas between them. -/
def keptNumbers : Embedding → List Char
  | [] => []
  | [number] => (Json.singleText number).toList
  | number :: numbers => (Json.singleText number).toList ++ ',' :: keptNumbers numbers

/-- The text under which a vector is kept, on one line and without blanks. -/
def keptText (vector : Embedding) : List Char :=
  '[' :: keptNumbers vector ++ [']']

/-- The numbers that a reader has passed over, each with the comma behind it. -/
def passedOver (numbers : Embedding) : List Char :=
  numbers.flatMap fun number => (Json.singleText number).toList ++ [',']

/-- A complaint fits a vector: it is about the null that stands for the first number which is not
finite, and it counts the characters up to the end of this null. -/
def Complains (vector : Embedding) (mismatch : Json.Mismatch) : Prop :=
  ∃ before number after, vector = before ++ number :: after ∧
    before.all Float32.isFinite = true ∧ ¬number.isFinite ∧
      mismatch = ⟨"null", "f32", 1, ('[' :: passedOver before ++ "null".toList).length⟩

theorem passedOver_cons (number : Float32) (numbers : Embedding) :
    passedOver (number :: numbers) =
      (Json.singleText number).toList ++ ',' :: passedOver numbers := by
  rw [passedOver, List.flatMap_cons, List.append_assoc]
  rfl

/-- A null comes later by the number that is passed over before it, and the comma. -/
theorem length_passedOver_cons (number : Float32) (numbers : Embedding) :
    (passedOver (number :: numbers) ++ "null".toList).length =
      (Json.singleText number).length + 1 + (passedOver numbers ++ "null".toList).length := by
  rw [passedOver_cons, List.append_assoc, List.cons_append, List.length_append, List.length_cons,
    String.length_toList]
  omega

/-- What a reader passes over stands at the front, and the next number behind it. -/
theorem prefix_keptNumbers (before : Embedding) (number : Float32) (after : Embedding) :
    passedOver before ++ (Json.singleText number).toList <+:
      keptNumbers (before ++ number :: after) := by
  induction before with
  | nil =>
    cases after with
    | nil => exact List.prefix_rfl
    | cons => exact List.prefix_append _ _
  | cons first others inductionHypothesis =>
    obtain ⟨next, rest, split⟩ : ∃ next rest, others ++ number :: after = next :: rest :=
      List.exists_cons_of_ne_nil (by simp)
    rw [passedOver_cons, List.cons_append, List.append_assoc, split, keptNumbers, ← split]
    · exact List.prefix_append_right_inj _ |>.mpr ((List.prefix_cons_inj _).mpr inductionHypothesis)
    · exact List.cons_ne_nil _ _

/-- Up to the column of a complaint the text of the vector holds what can be read and the null. -/
theorem Complains.take_keptText {vector : Embedding} {mismatch : Json.Mismatch}
    (complains : Complains vector mismatch) :
    ∃ passed, vector.keptText.take mismatch.column = '[' :: passed ++ "null".toList := by
  obtain ⟨before, number, after, rfl, -, infinite, rfl⟩ := complains
  obtain ⟨rest, split⟩ := prefix_keptNumbers before number after
  rw [Json.singleText_of_not_finite infinite] at split
  refine ⟨passedOver before, ?_⟩
  rw [keptText, ← split, ← List.cons_append, ← List.cons_append, List.append_assoc,
    List.take_left]

theorem Complains.not_all_isFinite {vector : Embedding} {mismatch : Json.Mismatch}
    (complains : Complains vector mismatch) : ¬vector.all Float32.isFinite = true := by
  obtain ⟨before, number, after, rfl, -, infinite, -⟩ := complains
  exact fun finite => infinite (List.all_eq_true.mp finite number (by simp))

/-! ### Complaints about vectors -/

theorem nullEnd?_eq_none_iff {vector : Embedding} :
    nullEnd? vector = none ↔ vector.all Float32.isFinite = true := by
  induction vector with
  | nil => exact iff_of_true rfl rfl
  | cons number numbers inductionHypothesis =>
    rw [nullEnd?, List.all_cons, Bool.and_eq_true, ← inductionHypothesis]
    split_ifs with finite
    · rw [Option.map_eq_none_iff, and_iff_right finite]
    · exact iff_of_false nofun fun both => finite both.1

/-- Up to the first number that is not finite, every number that is passed over adds its own text
and a comma. -/
theorem nullEnd?_append {before : Embedding} {number : Float32} (after : Embedding)
    (finites : before.all Float32.isFinite = true) (infinite : ¬number.isFinite) :
    nullEnd? (before ++ number :: after) = some (passedOver before ++ "null".toList).length := by
  induction before with
  | nil =>
    rw [List.nil_append, nullEnd?, if_neg infinite, Json.singleText_of_not_finite infinite]
    rfl
  | cons first others inductionHypothesis =>
    rw [List.all_cons, Bool.and_eq_true] at finites
    rw [List.cons_append, nullEnd?, if_pos finites.1, inductionHypothesis finites.2,
      length_passedOver_cons, Option.map_some]

/-- Where not all numbers are finite, there is a first one that is not. -/
theorem exists_first_infinite {vector : Embedding} (spoilt : ¬vector.all Float32.isFinite = true) :
    ∃ before number after, vector = before ++ number :: after ∧
      before.all Float32.isFinite = true ∧ ¬number.isFinite := by
  rw [List.all_eq_true, not_forall₂] at spoilt
  obtain ⟨some, among, infinite⟩ := spoilt
  obtain ⟨number, isFirst⟩ := Option.isSome_iff_exists.mp (List.find?_isSome.mpr
    ⟨some, among, Bool.not_eq_true' _ ▸ Bool.eq_false_iff.mpr infinite⟩ :
      (vector.find? fun number => !number.isFinite).isSome)
  obtain ⟨infinite, before, after, split, finites⟩ := List.find?_eq_some_iff_append.mp isFirst
  refine ⟨before, number, after, split, List.all_eq_true.mpr fun passed early => ?_, ?_⟩
  · simpa using finites passed early
  · simpa using infinite

theorem nullEnd?_eq_some_iff {vector : Embedding} {place : ℕ} :
    nullEnd? vector = some place ↔ ∃ before number after, vector = before ++ number :: after ∧
      before.all Float32.isFinite = true ∧ ¬number.isFinite ∧
        place = (passedOver before ++ "null".toList).length := by
  constructor
  · intro found
    have spoilt : ¬vector.all Float32.isFinite = true := by
      rw [← nullEnd?_eq_none_iff, found]
      exact Option.some_ne_none place
    obtain ⟨before, number, after, rfl, finites, infinite⟩ := exists_first_infinite spoilt
    rw [nullEnd?_append after finites infinite] at found
    exact ⟨before, number, after, rfl, finites, infinite, (Option.some.inj found).symm⟩
  · rintro ⟨before, number, after, rfl, finites, infinite, rfl⟩
    exact nullEnd?_append after finites infinite

/-- A vector can be read just if its numbers are finite. Nothing else is in the way. -/
theorem mismatch?_eq_none_iff {vector : Embedding} :
    vector.mismatch? = none ↔ vector.all Float32.isFinite = true := by
  rw [mismatch?, Option.map_eq_none_iff, nullEnd?_eq_none_iff]

/-- The reader of a vector complains about the first null of its text. -/
theorem mismatch?_eq_some_iff {vector : Embedding} {mismatch : Json.Mismatch} :
    vector.mismatch? = some mismatch ↔ Complains vector mismatch := by
  rw [mismatch?, Option.map_eq_some_iff]
  constructor
  · rintro ⟨place, found, rfl⟩
    obtain ⟨before, number, after, split, finites, infinite, rfl⟩ := nullEnd?_eq_some_iff.mp found
    refine ⟨before, number, after, split, finites, infinite, ?_⟩
    rw [List.cons_append, List.length_cons, Nat.add_comm]
  · rintro ⟨before, number, after, split, finites, infinite, rfl⟩
    refine ⟨_, nullEnd?_eq_some_iff.mpr ⟨before, number, after, split, finites, infinite, rfl⟩, ?_⟩
    rw [List.cons_append, List.length_cons, Nat.add_comm]

end Embedding

/-! ### Complaints about collections -/

namespace Store

variable {entries : List TextEntry}

/-- A collection can be read just if all of its vectors can: one that cannot be read is in the way
of all others. -/
theorem firstMismatch?_eq_none_iff : firstMismatch? entries = none ↔
    ∀ entry ∈ entries, entry.embedding.all Float32.isFinite = true := by
  rw [firstMismatch?, List.findSome?_eq_none_iff]
  simp only [List.mem_mergeSort, Embedding.mismatch?_eq_none_iff]

/-- No vector that cannot be read has a lesser identity than the one that is complained about. -/
theorem exists_least_of_firstMismatch? {mismatch : Json.Mismatch}
    (found : firstMismatch? entries = some mismatch) :
    ∃ entry ∈ entries, entry.embedding.Complains mismatch ∧ ∀ other ∈ entries,
      ¬other.embedding.all Float32.isFinite = true → entry.id ≤ other.id := by
  have sorted := Text.pairwise_mergeSort TextEntry.id entries
  obtain ⟨before, entry, after, split, complains, readable⟩ := List.findSome?_eq_some_iff.mp found
  have among : ∀ other, other ∈ entries ↔ other ∈ before ++ entry :: after :=
    fun other => by rw [← split, List.mem_mergeSort]
  refine ⟨entry, (among entry).mpr (by simp), Embedding.mismatch?_eq_some_iff.mp complains, ?_⟩
  intro other member spoilt
  obtain early | rfl | late := by simpa using (among other).mp member
  · exact absurd (Embedding.mismatch?_eq_none_iff.mp (readable other early)) spoilt
  · exact le_rfl
  · rw [split] at sorted
    exact (List.pairwise_cons.mp (List.pairwise_append.mp sorted).2.1).1 other late

/-- The complaint about a collection is that about the vector with the least identity among those
that cannot be read. -/
theorem firstMismatch?_eq_some_iff (distinct : (entries.map TextEntry.id).Nodup)
    {mismatch : Json.Mismatch} : firstMismatch? entries = some mismatch ↔
      ∃ entry ∈ entries, entry.embedding.Complains mismatch ∧ ∀ other ∈ entries,
        ¬other.embedding.all Float32.isFinite = true → entry.id ≤ other.id := by
  refine ⟨exists_least_of_firstMismatch?, ?_⟩
  rintro ⟨entry, member, complains, first⟩
  cases found : firstMismatch? entries with
  | none => exact absurd (firstMismatch?_eq_none_iff.mp found entry member) complains.not_all_isFinite
  | some said =>
    obtain ⟨other, memberToo, fits, firstToo⟩ := exists_least_of_firstMismatch? found
    have same : entry.id = other.id :=
      le_antisymm (first other memberToo fits.not_all_isFinite)
        (firstToo entry member complains.not_all_isFinite)
    obtain rfl := List.inj_on_of_nodup_map distinct member memberToo same
    rw [← Embedding.mismatch?_eq_some_iff] at fits complains
    rw [← fits, complains]

end Store

end MigrationGuard
