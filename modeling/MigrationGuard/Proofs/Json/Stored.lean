/-
This file describes which values of a type come back from a data file as they were
written. For every type the condition is exact: a value that meets it comes back,
and one that does not is not read as any value of the type. Doubles have to be
finite, counts have to fit into their words, and optional values must not be read
as null themselves; texts and alternatives always come back. What a structure
needs is what its fields need, so the condition of a session or of a run is put
together from those of its parts in the same way as the type is. With it goes how
deep the written values are nested, since reading refuses what is nested too
deeply. Conditions can be decided, so that a given value can be checked.
-/

import Mathlib.Data.List.Forall2
import Mathlib.Tactic.Simproc.ExistsAndEq
import MigrationGuard.Data.Word
import MigrationGuard.Proofs.Json.Reread

namespace MigrationGuard.Data

open Json

/-! ### Types that are stored -/

/-- A type whose values are written to data files and read back, with the exact condition for it. -/
class Stored (α : Type) [ToValue α] [OfValue α] where
  /-- The value comes back as it was. -/
  Lasts : α → Prop
  /-- Whether it does can be decided. -/
  decides : ∀ value, Decidable (Lasts value) := by intro value; infer_instance
  /-- How deep the lists and records of a value lie within one another. -/
  depth : Nat
  /-- No value is deeper. -/
  shallow : ∀ value : α, (toValue value).depth ≤ depth
  /-- A value that lasts comes back, and nothing else does. -/
  read_iff : ∀ value other : α,
    ofValue? (toValue value).reread = some other ↔ Lasts value ∧ value = other

attribute [simp] Stored.read_iff

instance {α : Type} [ToValue α] [OfValue α] [Stored α] (value : α) :
    Decidable (Stored.Lasts value) :=
  Stored.decides value

/-- A type all of whose values come back, so that nothing need be asked of a field that has it. -/
class Faithful (α : Type) [ToValue α] [OfValue α] where
  /-- How deep the lists and records of a value lie within one another. -/
  depth : Nat
  /-- No value is deeper. -/
  shallow : ∀ value : α, (toValue value).depth ≤ depth
  /-- Every value comes back. -/
  read : ∀ value : α, ofValue? (toValue value).reread = some value

attribute [simp] Faithful.read

instance (priority := low) {α : Type} [ToValue α] [OfValue α] [Faithful α] : Stored α where
  Lasts _ := True
  depth := Faithful.depth α
  shallow := Faithful.shallow
  read_iff value other := by
    rw [Faithful.read, Option.some.injEq]
    exact (and_iff_right trivial).symm

@[simp]
theorem Stored.shallow_le {α : Type} [ToValue α] [OfValue α] [Stored α] {bound : Nat}
    (deep : Stored.depth α ≤ bound) (value : α) : (toValue value).depth ≤ bound :=
  (Stored.shallow value).trans deep

/-- A type whose values are not read as null, so that an absent value can be told from a given one.
-/
class Present (α : Type) [ToValue α] : Prop where
  /-- Something is there. -/
  reread_ne_null : ∀ value : α, (toValue value).reread ≠ .null

/-! ### Plain values -/

instance : Faithful Bool where
  depth := 0
  shallow _ := Nat.le_refl 0
  read _ := rfl

instance : Faithful String where
  depth := 0
  shallow _ := Nat.le_refl 0
  read _ := rfl

instance : Stored Float where
  Lasts value := value.isFinite
  depth := 0
  shallow _ := Nat.le_refl 0
  read_iff value other := by
    show Value.toFloat? (if value.isFinite then .float value else .null) = some other ↔ _
    by_cases finite : value.isFinite
    · rw [if_pos finite, and_iff_right finite]
      exact Option.some.injEq value other ▸ Iff.rfl
    · rw [if_neg finite]
      exact iff_of_false (fun same => nomatch same) fun both => finite both.1

theorem toNatBelow?_ofFloat (bound : Nat) (value : Float) :
    (ofFloat value).toNatBelow? bound = none := by
  unfold ofFloat
  split_ifs <;> rfl

theorem reread_natural (value : Nat) : (Value.integer value).reread =
    if value < 2 ^ 64 then .integer value else ofFloat (Decimal.toFloat value 0) := by
  rw [Value.reread]
  simp [ofInteger]

/-- A count comes back if it is below the bound and fits in sixty-four bits. -/
theorem toNatBelow?_reread {bound : Nat} (word : bound ≤ 2 ^ 64) (value other : Nat) :
    (Value.integer value).reread.toNatBelow? bound = some other ↔
      value < bound ∧ value = other := by
  rw [reread_natural]
  split_ifs with small
  · show (if (0 : Int) ≤ value ∧ (value : Int) < bound then some (value : Int).toNat else none) =
      some other ↔ _
    rw [Int.toNat_natCast]
    by_cases below : value < bound
    · rw [if_pos ⟨Int.natCast_nonneg value, Int.ofNat_lt.mpr below⟩, and_iff_right below,
        Option.some.injEq]
    · rw [if_neg fun both => below (Int.ofNat_lt.mp both.2)]
      exact iff_of_false (fun same => nomatch same) fun both => below both.1
  · rw [toNatBelow?_ofFloat]
    exact iff_of_false (fun same => nomatch same) (by omega)

instance : Stored Nat where
  Lasts value := value < 2 ^ 64
  depth := 0
  shallow _ := Nat.le_refl 0
  read_iff value other := toNatBelow?_reread (Nat.le_refl _) value other

instance : Present String := ⟨fun _ => nofun⟩

/-! ### Optional values and lists -/

/-- A list is read item by item, and reading succeeds only if it does for each of them. -/
theorem mapM_eq_some_iff {α β : Type} {read : α → Option β} (items : List α) (others : List β) :
    items.mapM read = some others ↔
      List.Forall₂ (fun item other => read item = some other) items others := by
  induction items generalizing others with
  | nil => simp [eq_comm]
  | cons item items inductionHypothesis =>
    rw [List.mapM_cons, List.forall₂_cons_left_iff]
    simp only [← inductionHypothesis]
    cases read item with
    | none => simp
    | some found =>
      cases items.mapM read with
      | none => simp
      | some behind => simp [eq_comm]

section
variable {α : Type} [OfValue α]

theorem ofValue?_option_of_ne_null {value : Value} (present : value ≠ .null) :
    (ofValue? value : Option (Option α)) = (ofValue? value).map some := by
  cases value <;> first | rfl | exact absurd rfl present

variable [ToValue α] [Stored α]

instance [Present α] : Stored (Option α) where
  Lasts value := ∀ inner ∈ value, Stored.Lasts inner
  depth := Stored.depth α
  shallow
    | none => Nat.zero_le _
    | some inner => Stored.shallow inner
  read_iff
    | none, other => by
      show some none = some other ↔ _
      rw [Option.some.injEq]
      exact (and_iff_right fun inner member => nomatch member).symm
    | some inner, other => by
      have split : (∀ value ∈ some inner, Stored.Lasts value) ↔ Stored.Lasts inner :=
        ⟨fun all => all inner rfl, fun lasts value member => Option.some.inj member ▸ lasts⟩
      show ofValue? (toValue inner).reread = some other ↔ _
      rw [split, ofValue?_option_of_ne_null (Present.reread_ne_null inner), Option.map_eq_some_iff]
      simp only [Stored.read_iff, and_assoc, exists_and_left, exists_eq_left']

theorem depthItems_map_le (items : List α) :
    Value.depthItems (items.map toValue) ≤ Stored.depth α := by
  induction items with
  | nil => exact Nat.zero_le _
  | cons item items inductionHypothesis =>
    rw [List.map_cons, Value.depthItems]
    exact Nat.max_le.mpr ⟨Stored.shallow item, inductionHypothesis⟩

instance : Stored (List α) where
  Lasts items := ∀ item ∈ items, Stored.Lasts item
  depth := Stored.depth α + 1
  shallow items := Nat.succ_le_succ (depthItems_map_le items)
  read_iff items others := by
    show ((Value.list (items.map toValue)).reread.toList?.bind fun values =>
      values.mapM ofValue?) = some others ↔ _
    rw [Value.reread, Value.rereadItems_eq, List.map_map]
    refine (mapM_eq_some_iff _ _).trans (List.forall₂_map_left_iff.trans ?_)
    simp only [Function.comp_apply, Stored.read_iff, List.forall₂_and_left]
    rw [List.forall₂_eq_eq_eq]

end

section
variable {α : Type} [ToValue α] [OfValue α] [Faithful α]

instance [Present α] : Faithful (Option α) where
  depth := Stored.depth (Option α)
  shallow := Stored.shallow
  read value := (Stored.read_iff value value).mpr ⟨fun _ _ => trivial, rfl⟩

instance : Faithful (List α) where
  depth := Stored.depth (List α)
  shallow := Stored.shallow
  read items := (Stored.read_iff items items).mpr ⟨fun _ _ => trivial, rfl⟩

end

/-! ### Words -/

/-- Alternatives that are written as words come back if every word leads to its alternative. -/
@[reducible]
def Faithful.ofWords {α : Type} [Named α] [OfValue α] (words : List (String × α))
    (read : ∀ value, (ofValue? value : Option α) = ofWord? words value)
    (known : ∀ alternative : α, words.lookup (Named.name alternative) = some alternative) :
    Faithful α where
  depth := 0
  shallow _ := Nat.le_refl 0
  read alternative := (read _).trans (known alternative)

/-! ### Records -/

section
variable {α : Type} [OfValue α] (value : Value)

@[simp]
theorem required_given : (Slot.given value).required = (ofValue? value : Option α) :=
  rfl

@[simp]
theorem withDefault_given (fallback : α) :
    (Slot.given value).withDefault fallback = ofValue? value :=
  rfl

@[simp]
theorem optional_given : (Slot.given value).optional = (ofValue? value : Option (Option α)) :=
  rfl

end

theorem givenUnder_eq {members : List (String × Value)} (distinct : (members.map Prod.fst).Nodup)
    {member : String × Value} (known : member ∈ members) :
    Value.givenUnder member.1 members = [member.2] := by
  induction members with
  | nil => exact nomatch known
  | cons first others inductionHypothesis =>
    obtain ⟨fresh, distinctOthers⟩ := List.nodup_cons.mp distinct
    unfold Value.givenUnder at inductionHypothesis ⊢
    rcases List.mem_cons.mp known with rfl | behind
    · have none : others.filter (fun other => other.1 == member.1) = [] := by
        rw [List.filter_eq_nil_iff]
        intro other present same
        exact fresh (beq_iff_eq.mp same ▸ List.mem_map_of_mem present)
      rw [List.filter_cons, if_pos (beq_self_eq_true member.1), none]
      rfl
    · have different : ¬(first.1 == member.1) = true := fun same =>
        fresh (beq_iff_eq.mp same ▸ List.mem_map_of_mem behind)
      rw [List.filter_cons, if_neg different]
      exact inductionHypothesis distinctOthers behind

/-- The fields of a written record are found under their names, and no other fields are in it. -/
theorem slots?_reread {members : List (String × Value)} {names : List String}
    (named : members.map Prod.fst = names) (distinct : names.Nodup) :
    (Value.record members).reread.slots? names =
      some (members.map fun member => .given member.2.reread) := by
  subst named
  rw [Value.reread, Value.rereadMembers_eq]
  refine (mapM_eq_some_iff _ _).mpr ?_
  rw [List.forall₂_map_left_iff, List.forall₂_map_right_iff, List.forall₂_same]
  intro member known
  have found := @givenUnder_eq (members.map fun member => (member.1, member.2.reread))
    (by rw [List.map_map]; exact distinct) (member.1, member.2.reread)
    (List.mem_map.mpr ⟨member, known, rfl⟩)
  unfold Slot.ofMembers?
  rw [found]

/-- What is read from a written record is read from its fields, in the order in which they are
named. -/
theorem read_record_iff {α : Type} {members : List (String × Value)} {names : List String}
    {build : List Slot → Option α} {result : Option α}
    (named : members.map Prod.fst = names := by rfl) (distinct : names.Nodup := by decide) :
    ((Value.record members).reread.slots? names).bind build = result ↔
      build (members.map fun member => .given member.2.reread) = result := by
  rw [slots?_reread named distinct]
  rfl

theorem depth_record_le {members : List (String × Value)} {bound : Nat}
    (each : ∀ member ∈ members, member.2.depth ≤ bound) :
    (Value.record members).depth ≤ bound + 1 := by
  refine Nat.succ_le_succ ?_
  induction members with
  | nil => exact Nat.zero_le _
  | cons first others inductionHypothesis =>
    obtain ⟨here, behind⟩ := List.forall_mem_cons.mp each
    rw [Value.depthMembers]
    exact Nat.max_le.mpr ⟨here, inductionHypothesis behind⟩

end MigrationGuard.Data
