/-
This file leaves null members out of the records of written values, at any depth.
Files that were written by hand, or by a program that writes no nulls, look like
this, and are to be read as what was meant. Where a type has no value with a null
part that comes back, there is nothing to leave out. Otherwise a field is still
read as it was if it may be absent. So what is read from a record is told from its
fields, whether they are given as null or not at all: a slot shows a value if it
holds the value with null members left out, or nothing where the value is null.
Which members are left out is a relation and not a function, so the theorems hold
for every choice of them. What is to be shown of a type is that its values endure.
-/

import MigrationGuard.Proofs.Json.Stored

namespace MigrationGuard.Data

open Json

/-! ### Leaving out null members -/

/-- The second members are the first ones, some of which that are null are left out. Of the others
the values are in a relation. -/
inductive LeavesOut (inner : Value → Value → Prop) :
    List (String × Value) → List (String × Value) → Prop where
  /-- There is no member. -/
  | nil : LeavesOut inner [] []
  /-- A member stays. -/
  | keep {name : String} {value other : Value} {members others : List (String × Value)}
    (here : inner value other) (behind : LeavesOut inner members others) :
    LeavesOut inner ((name, value) :: members) ((name, other) :: others)
  /-- A member that is null is left out. -/
  | leave {name : String} {members others : List (String × Value)}
    (behind : LeavesOut inner members others) :
    LeavesOut inner ((name, .null) :: members) others

/-- The second value is the first one, where null members of records are left out. -/
inductive Value.Omits : Value → Value → Prop where
  /-- Nothing is left out. -/
  | same {value : Value} : Omits value value
  /-- Members are left out within the items of a list. -/
  | list {items others : List Value} (each : List.Forall₂ Omits items others) :
    Omits (.list items) (.list others)
  /-- Members are left out of a record. -/
  | record {members others : List (String × Value)} (left : LeavesOut Omits members others) :
    Omits (.record members) (.record others)

namespace LeavesOut

variable {inner : Value → Value → Prop} {members others : List (String × Value)}

theorem refl (all : ∀ value, inner value value) : LeavesOut inner members members := by
  induction members with
  | nil => exact .nil
  | cons member members inductionHypothesis => exact .keep (all member.2) inductionHypothesis

/-- Where no member is null or changed, all stay as they are, as nothing can be left out. -/
theorem eq_members (left : LeavesOut inner members others)
    (each : ∀ member ∈ members, member.2 ≠ .null ∧ ∀ less, inner member.2 less → less = member.2) :
    others = members := by
  induction left with
  | nil => rfl
  | keep here behind inductionHypothesis =>
    obtain ⟨first, rest⟩ := List.forall_mem_cons.mp each
    rw [first.2 _ here, inductionHypothesis rest]
  | leave behind inductionHypothesis =>
    exact absurd rfl (each _ List.mem_cons_self).1

theorem givenUnder_of_fresh (left : LeavesOut inner members others) {name : String}
    (fresh : name ∉ members.map Prod.fst) : Value.givenUnder name others = [] := by
  unfold Value.givenUnder
  induction left with
  | nil => rfl
  | keep here behind inductionHypothesis =>
    rw [List.map_cons, List.mem_cons, not_or] at fresh
    rw [List.filter_cons, if_neg (by simpa using Ne.symm fresh.1), inductionHypothesis fresh.2]
  | leave behind inductionHypothesis =>
    exact inductionHypothesis fun known => fresh (List.mem_cons_of_mem _ known)

/-- Under the name of a member there is what its value is related to, or nothing if it is null. -/
theorem givenUnder_cases (left : LeavesOut inner members others)
    (distinct : (members.map Prod.fst).Nodup) {member : String × Value} (known : member ∈ members) :
    (∃ less, inner member.2 less ∧ Value.givenUnder member.1 others = [less]) ∨
      member.2 = .null ∧ Value.givenUnder member.1 others = [] := by
  induction left with
  | nil => exact nomatch known
  | keep here behind inductionHypothesis =>
    rw [List.map_cons, List.nodup_cons] at distinct
    unfold Value.givenUnder at inductionHypothesis ⊢
    rw [List.filter_cons]
    obtain rfl | among := List.mem_cons.mp known
    · have none := behind.givenUnder_of_fresh distinct.1
      rw [if_pos (beq_self_eq_true _), List.map_cons]
      exact Or.inl ⟨_, here, congrArg _ none⟩
    · have apart := ne_of_mem_of_not_mem (List.mem_map_of_mem among) distinct.1
      rw [if_neg (by simpa using Ne.symm apart)]
      exact inductionHypothesis distinct.2 among
  | leave behind inductionHypothesis =>
    rw [List.map_cons, List.nodup_cons] at distinct
    obtain rfl | among := List.mem_cons.mp known
    · exact Or.inr ⟨rfl, behind.givenUnder_of_fresh distinct.1⟩
    · exact inductionHypothesis distinct.2 among

end LeavesOut

namespace Value

mutual

/-- No part of the value is null, however deep it lies. -/
def isGapless : Value → Bool
  | .null => false
  | .list items => areGapless items
  | .record members => areGaplessMembers members
  | _ => true

/-- No part of an item of the list is null. -/
def areGapless : List Value → Bool
  | [] => true
  | item :: items => item.isGapless && areGapless items

/-- No part of a member of the record is null. -/
def areGaplessMembers : List (String × Value) → Bool
  | [] => true
  | (_, value) :: members => value.isGapless && areGaplessMembers members

end

theorem areGapless_iff {items : List Value} :
    areGapless items ↔ ∀ item ∈ items, item.isGapless := by
  induction items with
  | nil => simp [areGapless]
  | cons item items inductionHypothesis => simp [areGapless, inductionHypothesis]

theorem areGaplessMembers_iff {members : List (String × Value)} :
    areGaplessMembers members ↔ ∀ member ∈ members, member.2.isGapless := by
  induction members with
  | nil => simp [areGaplessMembers]
  | cons member members inductionHypothesis => simp [areGaplessMembers, inductionHypothesis]

theorem ne_null_of_isGapless {value : Value} (gapless : value.isGapless) : value ≠ .null := by
  rintro rfl
  exact nomatch gapless

namespace Omits

theorem eq_null {less : Value} (omits : Omits .null less) : less = .null := by
  cases omits
  rfl

theorem ne_null {value less : Value} (present : value ≠ .null) (omits : value.Omits less) :
    less ≠ .null := by
  cases omits with
  | same => exact present
  | list => exact nofun
  | record => exact nofun

/-- Out of a record only members are left, so it stays a record. -/
theorem of_record {members : List (String × Value)} {less : Value}
    (omits : (Value.record members).Omits less) :
    ∃ others, less = .record others ∧ LeavesOut Omits members others := by
  cases omits with
  | same => exact ⟨members, rfl, .refl fun _ => .same⟩
  | record left => exact ⟨_, rfl, left⟩

/-- A relation holds between a value and the same without null members if it passes from the items
and the members that stay to the whole. -/
@[elab_as_elim]
theorem within {motive : Value → Value → Prop} (same : ∀ value, motive value value)
    (list : ∀ items others, List.Forall₂ motive items others → motive (.list items) (.list others))
    (record : ∀ members others, LeavesOut motive members others →
      motive (.record members) (.record others)) {value less : Value}
    (omits : value.Omits less) : motive value less :=
  @Omits.rec (fun value less _ => motive value less)
    (fun items others _ => List.Forall₂ motive items others)
    (fun members others _ => LeavesOut motive members others) (same _)
    (fun _ each => list _ _ each) (fun _ left => record _ _ left) .nil
    (fun _ _ here behind => .cons here behind) .nil (fun _ _ here behind => .keep here behind)
    (fun _ behind => .leave behind) value less omits

/-- Where nothing is null, nothing can be left out, and the value is the only one to be read. -/
theorem eq_of_isGapless {value less : Value} (omits : value.Omits less) :
    value.isGapless → less = value := by
  refine within (fun _ _ => rfl) (fun items others each gapless => ?_)
    (fun members others left gapless => ?_) omits
  · rw [isGapless, areGapless_iff] at gapless
    refine congrArg Value.list ?_
    induction each with
    | nil => rfl
    | cons here behind inductionHypothesis =>
      obtain ⟨first, rest⟩ := List.forall_mem_cons.mp gapless
      rw [here first, inductionHypothesis rest]
  · rw [isGapless, areGaplessMembers_iff] at gapless
    exact congrArg Value.record (left.eq_members fun member known =>
      ⟨ne_null_of_isGapless (gapless member known), fun _ here => here (gapless member known)⟩)

/-- What is left out of a value is left out of what it is read as. -/
theorem reread {value less : Value} (omits : value.Omits less) :
    value.reread.Omits less.reread := by
  refine within (fun _ => .same) (fun items others each => ?_) (fun members others left => ?_) omits
  · rw [Value.reread, Value.reread, rereadItems_eq, rereadItems_eq]
    exact .list (List.forall₂_map_left_iff.mpr (List.forall₂_map_right_iff.mpr each))
  · rw [Value.reread, Value.reread, rereadMembers_eq, rereadMembers_eq]
    refine .record ?_
    induction left with
    | nil => exact .nil
    | keep here behind inductionHypothesis => exact .keep here inductionHypothesis
    | leave behind inductionHypothesis => exact .leave inductionHypothesis

theorem depth_le {value less : Value} (omits : value.Omits less) : less.depth ≤ value.depth := by
  refine within (fun _ => Nat.le_refl _) (fun items others each => Nat.succ_le_succ ?_)
    (fun members others left => Nat.succ_le_succ ?_) omits
  · induction each with
    | nil => exact Nat.le_refl _
    | cons here behind inductionHypothesis =>
      rw [depthItems, depthItems]
      omega
  · induction left with
    | nil => exact Nat.le_refl _
    | keep here behind inductionHypothesis =>
      rw [depthMembers, depthMembers]
      omega
    | leave behind inductionHypothesis =>
      rw [depthMembers]
      omega

end Omits

end Value

/-! ### Fields -/

/-- A slot shows a value: it holds the value with null members left out, or nothing at all, if the
value is null. -/
inductive Value.Shown : Value → Slot → Prop where
  /-- The value is given. -/
  | given {value less : Value} (omits : value.Omits less) : Shown value (.given less)
  /-- The value is left out. -/
  | missing : Shown .null .missing

/-- The fields of a written record are shown under their names, whatever is left out. -/
theorem slots?_of_omits {members : List (String × Value)} {names : List String} {less : Value}
    (omits : (Value.record members).reread.Omits less) (named : members.map Prod.fst = names)
    (distinct : names.Nodup) :
    ∃ slot : String → Slot, less.slots? names = some (names.map slot) ∧
      ∀ member ∈ members, member.2.reread.Shown (slot member.1) := by
  subst named
  rw [Value.reread, Value.rereadMembers_eq] at omits
  obtain ⟨others, rfl, left⟩ := omits.of_record
  have shown : ∀ member ∈ members, ∃ slot, Slot.ofMembers? others member.1 = some slot ∧
      member.2.reread.Shown slot := by
    intro member known
    have found := left.givenUnder_cases (by rw [List.map_map]; exact distinct)
      (List.mem_map_of_mem known)
    unfold Slot.ofMembers?
    obtain ⟨less, omits, given⟩ | ⟨null, none⟩ := found
    · rw [given]
      exact ⟨_, rfl, .given omits⟩
    · rw [none, show member.2.reread = .null from null]
      exact ⟨_, rfl, .missing⟩
  refine ⟨fun name => (Slot.ofMembers? others name).getD .missing, ?_, fun member known => ?_⟩
  · refine (mapM_eq_some_iff _ _).mpr ?_
    rw [List.forall₂_map_left_iff, List.map_map, List.forall₂_map_right_iff, List.forall₂_same]
    intro member known
    obtain ⟨slot, found, -⟩ := shown member known
    rw [Function.comp_apply, found, Option.getD_some]
  · obtain ⟨slot, found, shows⟩ := shown member known
    dsimp only
    rwa [found, Option.getD_some]

/-- What is read from slots that show the fields of a written record is read from the record,
whatever is left out. -/
theorem read_of_omits {α : Type} {members : List (String × Value)} {names : List String}
    {less : Value} {build : List Slot → Option α} {result : α}
    (omits : (Value.record members).reread.Omits less)
    (reads : ∀ slot : String → Slot, (∀ member ∈ members, member.2.reread.Shown (slot member.1)) →
      build (names.map slot) = some result)
    (named : members.map Prod.fst = names := by rfl) (distinct : names.Nodup := by decide) :
    (less.slots? names).bind build = some result := by
  obtain ⟨slot, found, shown⟩ := slots?_of_omits omits named distinct
  rw [found, Option.bind_some, reads slot shown]

/-! ### What is still read -/

section
variable {α : Type} [ToValue α] [OfValue α]

/-- Whatever null members are left out of the written value, it comes back as it was. -/
structure Endures (value : α) : Prop where
  /-- Something is written. -/
  present : (toValue value).reread ≠ .null
  /-- It is read without the members that are left out. -/
  read : ∀ less, (toValue value).reread.Omits less → ofValue? less = some value

/-- A type whose values have no null part, where they come back. For such types there is nothing to
prove about omission. -/
class Gapless (α : Type) [ToValue α] [OfValue α] [Stored α] : Prop where
  /-- No part is null. -/
  gapless : ∀ value : α, Stored.Lasts value → (toValue value).reread.isGapless

theorem reread_record_ne_null {members : List (String × Value)} :
    (Value.record members).reread ≠ .null :=
  fun null => Value.noConfusion null

/-- A value without a null part endures if it comes back at all, as nothing is left out. -/
theorem endures_of_lasts [Stored α] [Gapless α] {value : α} (lasts : Stored.Lasts value) :
    Endures value := by
  have gapless := Gapless.gapless value lasts
  refine ⟨Value.ne_null_of_isGapless gapless, fun less omits => ?_⟩
  rw [omits.eq_of_isGapless gapless]
  exact (Stored.read_iff value value).mpr ⟨lasts, rfl⟩

namespace Value.Shown

variable {slot : Slot}

theorem required {value : α} (shown : (toValue value).reread.Shown slot)
    (endures : Endures value) : slot.required = some value := by
  generalize written : (toValue value).reread = found at shown
  cases shown with
  | given omits => exact endures.read _ (written ▸ omits)
  | missing => exact absurd written endures.present

theorem withDefault {value fallback : α} (shown : (toValue value).reread.Shown slot)
    (endures : Endures value) : slot.withDefault fallback = some value := by
  generalize written : (toValue value).reread = found at shown
  cases shown with
  | given omits => exact endures.read _ (written ▸ omits)
  | missing => exact absurd written endures.present

/-- A field that may be absent is read as it was, also if it is left out. -/
theorem optional {value : Option α} (shown : (toValue value).reread.Shown slot)
    (endures : ∀ inner ∈ value, Endures inner) :
    slot.withDefault none = some value ∧ slot.optional = some value := by
  cases value with
  | none =>
    have null : (toValue (none : Option α)).reread = .null := rfl
    rw [null] at shown
    cases shown with
    | given omits =>
      rw [omits.eq_null]
      exact ⟨rfl, rfl⟩
    | missing => exact ⟨rfl, rfl⟩
  | some inner =>
    obtain ⟨present, read⟩ := endures inner rfl
    have same : (toValue (some inner)).reread = (toValue inner).reread := rfl
    rw [same] at shown
    generalize written : (toValue inner).reread = found at shown
    cases shown with
    | given omits =>
      subst written
      have given := ofValue?_option_of_ne_null (α := α) (omits.ne_null present)
      rw [read _ omits] at given
      exact ⟨given, given⟩
    | missing => exact absurd written present

end Value.Shown

end

/-! ### Types without null parts -/

@[simp]
theorem Stored.lasts_of_faithful {α : Type} [ToValue α] [OfValue α] [Faithful α] (value : α) :
    Stored.Lasts value :=
  trivial

@[simp]
theorem Stored.lasts_items_of_faithful {α : Type} [ToValue α] [OfValue α] [Faithful α]
    (items : List α) : Stored.Lasts items :=
  fun _ _ => trivial

@[simp]
theorem isGapless_of_lasts {α : Type} [ToValue α] [OfValue α] [Stored α] [Gapless α] {value : α}
    (lasts : Stored.Lasts value) : (toValue value).reread.isGapless :=
  Gapless.gapless value lasts

instance : Gapless Bool := ⟨fun _ _ => rfl⟩
instance : Gapless String := ⟨fun _ _ => rfl⟩

instance : Gapless Nat where
  gapless value lasts := by
    have reread : (toValue value).reread = .integer value :=
      (reread_natural value).trans (if_pos lasts)
    rw [reread]
    rfl

instance : Gapless Float where
  gapless value lasts := by
    have reread : (toValue value).reread = .float value := if_pos lasts
    rw [reread]
    rfl

instance {α : Type} [ToValue α] [OfValue α] [Stored α] [Gapless α] : Gapless (List α) where
  gapless items lasts := by
    show Value.areGapless (Value.rereadItems (items.map toValue))
    rw [Value.rereadItems_eq, List.map_map, Value.areGapless_iff]
    intro found member
    obtain ⟨item, among, rfl⟩ := List.mem_map.mp member
    exact Gapless.gapless item (lasts item among)

/-- Words have no parts, so alternatives that are written as words are never null. -/
theorem Gapless.ofWords {α : Type} [Named α] [OfValue α] [Faithful α] : Gapless α :=
  ⟨fun _ _ => rfl⟩

theorem isGapless_record {members : List (String × Value)} :
    (Value.record members).reread.isGapless ↔ ∀ member ∈ members, member.2.reread.isGapless := by
  rw [Value.reread, Value.rereadMembers_eq, Value.isGapless, Value.areGaplessMembers_iff,
    List.forall_mem_map]

end MigrationGuard.Data
