/-
This file says which warnings count as repetitions of earlier ones. A warning is
left out just if an earlier one has the same key, and to leave out repetitions a
second time changes nothing. The key joins the function and the beginning of the
message by a low line. So two warnings about different functions have one key
where the longer name goes on as the message of the other warning begins, and just
then: such a warning is left out although it repeats nothing. What is kept is
described as the items that no earlier one stands in a relation to, once for the
relation that keys give and once for repetitions proper; the two agree just if
each warning that is left out repeats some earlier one. Two warnings about sending
mail show the difference: a critical one is lost.
-/

import Mathlib.Data.List.Induction
import MigrationGuard.Proofs.Memory.Warnings

namespace MigrationGuard

/-! ### First items -/

section
variable {Item : Type}

/-- The items that no item before them stands in a relation to, in their order. -/
def firsts (same : Item → Item → Prop) [DecidableRel same] (items : List Item) : List Item :=
  (items.zipIdx.filter fun placed : Item × Nat =>
    decide (∀ earlier ∈ items.take placed.2, ¬ same earlier placed.1)).map Prod.fst

/-- A property of each item and those before it is one of the last item and of the rest. -/
theorem forall_split_append_singleton {property : List Item → Item → Prop} {items : List Item}
    {item : Item} :
    (∀ front other back, items ++ [item] = front ++ other :: back → property front other) ↔
      (∀ front other back, items = front ++ other :: back → property front other) ∧
        property items item := by
  constructor
  · intro all
    refine ⟨fun front other back split => all front other (back ++ [item]) ?_, ?_⟩
    · rw [split, List.append_assoc, List.cons_append]
    · exact all items item [] rfl
  · rintro ⟨within, last⟩ front other back split
    obtain rfl | ⟨behind, final, rfl⟩ := List.eq_nil_or_concat back
    · obtain ⟨rfl, same⟩ := List.append_inj' split rfl
      exact List.singleton_inj.mp same ▸ last
    · rw [List.concat_eq_append, ← List.cons_append, ← List.append_assoc] at split
      exact within front other behind (List.append_inj' split rfl).1

variable {same finer : Item → Item → Prop} [DecidableRel same] [DecidableRel finer]

theorem firsts_append_singleton (items : List Item) (item : Item) :
    firsts same (items ++ [item]) =
      firsts same items ++ if ∃ earlier ∈ items, same earlier item then [] else [item] := by
  have before : (items.zipIdx.filter fun placed : Item × Nat =>
        decide (∀ earlier ∈ (items ++ [item]).take placed.2, ¬ same earlier placed.1)) =
      items.zipIdx.filter fun placed : Item × Nat =>
        decide (∀ earlier ∈ items.take placed.2, ¬ same earlier placed.1) := by
    refine List.filter_congr fun placed member => ?_
    have within : placed.2 < items.length := by
      have bound := List.snd_lt_add_of_mem_zipIdx member
      omega
    rw [List.take_append_of_le_length (Nat.le_of_lt within)]
  rw [firsts, List.zipIdx_append, List.filter_append, before, List.map_append, firsts]
  refine congrArg (_ ++ ·) ?_
  rw [List.zipIdx_singleton, Nat.zero_add, List.filter_cons, List.filter_nil, List.take_left]
  simp only [decide_eq_true_eq]
  split_ifs with first found found
  · obtain ⟨earlier, member, isSame⟩ := found
    exact absurd isSame (first earlier member)
  · rfl
  · rfl
  · exact absurd (fun earlier member isSame => found ⟨earlier, member, isSame⟩) first

/-- By a finer relation there are at least as many first items, and the same ones just if no item
is left out by the other relation alone. -/
theorem firsts_eq_firsts_iff (implies : ∀ one other, finer one other → same one other)
    (items : List Item) :
    (firsts same items).length ≤ (firsts finer items).length ∧
      (firsts same items = firsts finer items ↔
        ∀ front item back, items = front ++ item :: back →
          (∃ earlier ∈ front, same earlier item) → ∃ earlier ∈ front, finer earlier item) := by
  induction items using List.reverseRecOn with
  | nil => simp [firsts]
  | append_singleton items item inductionHypothesis =>
    obtain ⟨fewer, equal⟩ := inductionHypothesis
    rw [firsts_append_singleton, firsts_append_singleton, forall_split_append_singleton, ← equal]
    by_cases coarse : ∃ earlier ∈ items, same earlier item
    · by_cases fine : ∃ earlier ∈ items, finer earlier item
      · rw [if_pos coarse, if_pos fine, List.append_nil, List.append_nil]
        exact ⟨fewer, (and_iff_left fun _ => fine).symm⟩
      · rw [if_pos coarse, if_neg fine, List.append_nil]
        have more : (firsts same items).length < (firsts finer items ++ [item]).length := by
          rw [List.length_append, List.length_singleton]
          omega
        refine ⟨Nat.le_of_lt more, iff_of_false (fun one => ?_) fun both => fine (both.2 coarse)⟩
        exact Nat.ne_of_lt more (congrArg List.length one)
    · have fine : ¬ ∃ earlier ∈ items, finer earlier item := fun ⟨earlier, member, isSame⟩ =>
        coarse ⟨earlier, member, implies _ _ isSame⟩
      rw [if_neg coarse, if_neg fine, List.append_left_inj, List.length_append, List.length_append]
      exact ⟨Nat.add_le_add_right fewer _, (and_iff_left fun found => absurd found coarse).symm⟩

end

/-! ### Keys -/

namespace RiskWarning

/-- The beginning of the message, by which repetitions are told. What comes behind it does not
count. -/
def start (warning : RiskWarning) : List Char :=
  warning.message.toList.take 50

/-- Two warnings are about one function, and their messages begin alike. This is what a repetition
is meant to be. -/
def Repeats (one other : RiskWarning) : Prop :=
  one.function = other.function ∧ one.start = other.start

instance : DecidableRel Repeats := fun _ _ => inferInstanceAs (Decidable (_ ∧ _))

/-- The function of the other warning goes on, behind a low line, as the message of the first one
begins, and the rest of that beginning is the beginning of the other message. -/
def RunsInto (one other : RiskWarning) : Prop :=
  ∃ between : List Char, other.function.toList = one.function.toList ++ '_' :: between ∧
    one.start = between ++ '_' :: other.start

theorem toList_dedupeKey (warning : RiskWarning) :
    warning.dedupeKey.toList = warning.function.toList ++ '_' :: warning.start := by
  simp only [dedupeKey, Text.truncate, String.toList_append, String.toList_ofList,
    List.append_assoc]
  rfl

/-- One warning is taken for a repetition of the other, rightly or because a name runs into a
message. -/
def TakenFor (one other : RiskWarning) : Prop :=
  one.Repeats other ∨ one.RunsInto other ∨ other.RunsInto one

theorem dedupeKey_eq_iff {one other : RiskWarning} :
    one.dedupeKey = other.dedupeKey ↔ one.TakenFor other := by
  rw [← String.toList_inj, toList_dedupeKey, toList_dedupeKey, List.append_eq_append_iff]
  constructor
  · rintro (⟨extra, longer, rest⟩ | ⟨extra, longer, rest⟩)
    · cases extra with
      | nil =>
        rw [List.append_nil, String.toList_inj] at longer
        exact Or.inl ⟨longer.symm, (List.cons.inj rest).2⟩
      | cons mark between =>
        obtain ⟨rfl, begins⟩ := List.cons.inj rest
        exact Or.inr (Or.inl ⟨between, longer, begins⟩)
    · cases extra with
      | nil =>
        rw [List.append_nil, String.toList_inj] at longer
        exact Or.inl ⟨longer, (List.cons.inj rest).2.symm⟩
      | cons mark between =>
        obtain ⟨rfl, begins⟩ := List.cons.inj rest
        exact Or.inr (Or.inr ⟨between, longer, begins⟩)
  · rintro (⟨function, begins⟩ | ⟨between, longer, begins⟩ | ⟨between, longer, begins⟩)
    · exact Or.inl ⟨[], by rw [function, List.append_nil], by rw [begins]; rfl⟩
    · exact Or.inl ⟨'_' :: between, longer, by rw [begins]; rfl⟩
    · exact Or.inr ⟨'_' :: between, longer, by rw [begins]; rfl⟩

instance : DecidableRel TakenFor := fun one other =>
  decidable_of_iff (one.dedupeKey = other.dedupeKey) dedupeKey_eq_iff

end RiskWarning

/-! ### What is kept -/

theorem dedupeAfter_append_singleton (seen : List String) (warnings : List RiskWarning)
    (warning : RiskWarning) :
    dedupeAfter seen (warnings ++ [warning]) = dedupeAfter seen warnings ++
      if warning.dedupeKey ∈ seen ∨ ∃ earlier ∈ warnings, earlier.TakenFor warning then []
      else [warning] := by
  induction warnings generalizing seen with
  | nil =>
    rw [List.nil_append, dedupeAfter, dedupeAfter, dedupeAfter, dedupeAfter, List.nil_append]
    simp only [List.contains_iff_mem, List.not_mem_nil, false_and, exists_false, or_false]
  | cons first warnings inductionHypothesis =>
    rw [List.cons_append, dedupeAfter, dedupeAfter, inductionHypothesis, inductionHypothesis]
    simp only [List.mem_cons, exists_eq_or_imp, List.contains_iff_mem]
    split
    case isTrue known =>
      -- A warning with the key of the first one has a key that was seen before.
      have seenToo : first.TakenFor warning → warning.dedupeKey ∈ seen := fun taken =>
        RiskWarning.dedupeKey_eq_iff.mpr taken ▸ known
      refine congrArg (_ ++ ·) (if_congr ?_ rfl rfl)
      rw [← or_assoc, or_iff_left_of_imp seenToo]
    case isFalse =>
      refine congrArg (first :: dedupeAfter _ warnings ++ ·) (if_congr ?_ rfl rfl)
      rw [or_assoc, or_left_comm, ← RiskWarning.dedupeKey_eq_iff, eq_comm]

/-- The warnings that are kept are those that are taken for no repetition of an earlier one. -/
theorem dedupeWarnings_eq_firsts (warnings : List RiskWarning) :
    dedupeWarnings warnings = firsts RiskWarning.TakenFor warnings := by
  induction warnings using List.reverseRecOn with
  | nil => rfl
  | append_singleton warnings warning inductionHypothesis =>
    rw [dedupeWarnings, dedupeAfter_append_singleton, firsts_append_singleton,
      ← inductionHypothesis, dedupeWarnings]
    simp only [List.not_mem_nil, false_or]

theorem dedupeAfter_dedupeAfter (seen : List String) (warnings : List RiskWarning) :
    dedupeAfter seen (dedupeAfter seen warnings) = dedupeAfter seen warnings := by
  induction warnings generalizing seen with
  | nil => rfl
  | cons warning warnings inductionHypothesis =>
    rw [dedupeAfter]
    split
    case isTrue => exact inductionHypothesis seen
    case isFalse new => rw [dedupeAfter, if_neg new, inductionHypothesis]

/-- What is kept of warnings are those that are taken for no repetition of an earlier one. They are
those that repeat no earlier one just if each one that is taken for a repetition is one, of that
warning or another. Nothing is left out of them a second time. -/
theorem dedupeWarnings_keeps (warnings : List RiskWarning) :
    dedupeWarnings warnings = firsts RiskWarning.TakenFor warnings ∧
      (dedupeWarnings warnings = firsts RiskWarning.Repeats warnings ↔
        ∀ front warning back, warnings = front ++ warning :: back →
          (∃ earlier ∈ front, earlier.TakenFor warning) →
            ∃ earlier ∈ front, earlier.Repeats warning) ∧
      dedupeWarnings (dedupeWarnings warnings) = dedupeWarnings warnings := by
  have kept := dedupeWarnings_eq_firsts warnings
  have implies : ∀ one other : RiskWarning, one.Repeats other → one.TakenFor other :=
    fun _ _ => Or.inl
  refine ⟨kept, ?_, dedupeAfter_dedupeAfter [] warnings⟩
  rw [kept]
  exact (firsts_eq_firsts_iff implies warnings).2

/-- A minor warning about sending mail, and a critical one about sending. -/
def mailWarnings : List RiskWarning :=
  [⟨.semantic, "send_email", .nonCritical, "retries changed", 1⟩,
    ⟨.memory, "send", .critical, "email_retries changed", 2⟩]

/-- The critical warning is left out although the other one is about another function. -/
theorem mailWarnings_not_firsts :
    dedupeWarnings mailWarnings ≠ firsts RiskWarning.Repeats mailWarnings := by
  decide +kernel

end MigrationGuard
