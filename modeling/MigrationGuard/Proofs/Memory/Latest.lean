/-
This file puts rows in the order of their times, the latest first. Rows are kept
in the order in which they were recorded, and of rows at one time the one that was
recorded last comes first. A store gets this order by turning the rows around and
sorting them by time, with a sort that keeps the order of what is alike; the order
itself is described without the sort, by the times and the places of the rows. The
history of runs and the choice of the approved document both go by such an order,
so what decides between rows of one time is shown here once. Times may well repeat
or go back, as several programs write with clocks of their own.
-/

import Mathlib.Data.List.Basic

namespace MigrationGuard

variable {Row : Type}

/-! ### Sorting keeps the order of what is alike -/

/-- Of two items of a sorted list, the first is at most the second, and if they are alike they stand
as they did before. -/
theorem pairwise_mergeSort_stable {atMost : Row → Row → Bool}
    (trans : ∀ one other third, atMost one other → atMost other third → atMost one third)
    (total : ∀ one other, atMost one other || atMost other one) {before : Row → Row → Prop}
    {rows : List Row} (inOrder : rows.Pairwise before) :
    (rows.mergeSort atMost).Pairwise fun one other =>
      atMost one other ∧ (atMost other one → before one other) := by
  refine (List.pairwise_mergeSort trans total rows).and ?_
  induction rows with
  | nil => simp
  | cons row rows inductionHypothesis =>
    obtain ⟨isFirst, laterInOrder⟩ := List.pairwise_cons.mp inOrder
    have later := inductionHypothesis laterInOrder
    -- The row goes before all that are alike, and what is in front of it is not alike.
    obtain ⟨front, back, sorted, split, apart⟩ := List.mergeSort_cons trans total row rows
    rw [split, List.pairwise_append] at later
    obtain ⟨inFront, inBack, across⟩ := later
    rw [sorted, List.pairwise_append, List.pairwise_cons]
    refine ⟨inFront, ⟨fun other member _ => isFirst other ?_, inBack⟩, fun one amongFront => ?_⟩
    · rw [← (List.mergeSort_perm rows atMost).mem_iff, split]
      exact List.mem_append_right front member
    · intro other member alike
      obtain rfl | amongBack := List.mem_cons.mp member
      · exact absurd alike (Bool.not_eq_true _ ▸ Bool.not_eq_true' _ ▸ apart one amongFront)
      · exact across one amongFront other amongBack alike

/-! ### Rows by time -/

/-- The rows with the places at which they were recorded, the latest first. Of rows at one time the
one that was recorded last comes first. -/
structure LatestFirst (time : Row → Int) (rows : List Row) (ordered : List (Row × Nat)) :
    Prop where
  /-- They are the rows, each at its place. -/
  all : ordered.Perm rows.zipIdx
  /-- The order goes by time, then by place. -/
  sorted : ordered.Pairwise fun one other =>
    time other.1 < time one.1 ∨ time other.1 = time one.1 ∧ other.2 < one.2

theorem pairwise_zipIdx_reverse (rows : List Row) :
    rows.zipIdx.reverse.Pairwise fun one other => other.2 < one.2 := by
  rw [List.pairwise_reverse, ← List.pairwise_map (f := Prod.snd), List.zipIdx_map_snd]
  exact List.pairwise_lt_range'

/-- Rows that are sorted by time, those recorded last before the others, are in this order. -/
theorem exists_latestFirst (time : Row → Int) (rows : List Row) :
    ∃ ordered, LatestFirst time rows ordered ∧
      ordered.map Prod.fst =
        rows.reverse.mergeSort fun left right => time right ≤ time left := by
  let atMost := fun left right : Row × Nat => decide (time right.1 ≤ time left.1)
  have stable : (rows.zipIdx.reverse.mergeSort atMost).Pairwise fun one other =>
      atMost one other ∧ (atMost other one → other.2 < one.2) := by
    refine pairwise_mergeSort_stable (fun one other third notEarlier notEarlierToo => ?_)
      (fun one other => ?_) (pairwise_zipIdx_reverse rows)
    · simp only [atMost, decide_eq_true_eq] at *
      omega
    · simp only [atMost, Bool.or_eq_true, decide_eq_true_eq]
      omega
  refine ⟨rows.zipIdx.reverse.mergeSort atMost, ⟨?_, stable.imp fun {one other} sorted => ?_⟩, ?_⟩
  · exact (List.mergeSort_perm _ _).trans (List.reverse_perm _)
  · obtain ⟨notLater, alike⟩ := sorted
    simp only [atMost, decide_eq_true_eq] at notLater alike
    omega
  · have unplaced := List.map_mergeSort (l := rows.zipIdx.reverse) (r := atMost) (f := Prod.fst)
      (s := fun left right => time right ≤ time left) fun _ _ _ _ => rfl
    rw [unplaced, List.map_reverse, List.zipIdx_map_fst]

end MigrationGuard
