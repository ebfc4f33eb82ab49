/-
This file holds the kinds of side effect that a function can have and sets of
them. A set remembers for every kind whether it belongs to it, so two sets with
the same members are equal and a union does not depend on an order. Members are
listed in the order of the kinds, in which they are also written.
-/

import MigrationGuard.Data.Word

namespace MigrationGuard

open Data

/-- A kind of side effect, as the names of calls tell them. -/
inductive SideEffect where
  /-- Reading or writing files. -/
  | fileIo
  /-- Reading the environment. -/
  | envRead
  /-- Talking to other machines. -/
  | network
  /-- Using a database. -/
  | database
  /-- Starting other programs. -/
  | subprocess
  deriving DecidableEq, Repr

instance : Named SideEffect where
  noun := "side effect"
  all := [.fileIo, .envRead, .network, .database, .subprocess]
  name
    | .fileIo => "file_io"
    | .envRead => "env_read"
    | .network => "network"
    | .database => "db"
    | .subprocess => "subprocess"

/-- The side effect that a text names, with blanks around it. -/
def SideEffect.read (text : String) : Except UnknownWord SideEffect :=
  Named.read [] (Text.trimmed text)

instance : OfValue SideEffect := ⟨ofWord? Named.table⟩

/-! ### Sets of side effects -/

/-- A set of side effects, which is determined by its members. -/
structure EffectSet where
  /-- Whether file access belongs to the set. -/
  fileIo : Bool
  /-- Whether environment reads belong to the set. -/
  envRead : Bool
  /-- Whether network access belongs to the set. -/
  network : Bool
  /-- Whether database use belongs to the set. -/
  database : Bool
  /-- Whether other programs belong to the set. -/
  subprocess : Bool
  deriving DecidableEq, Repr

namespace EffectSet

/-- The set without members, which a function without side effects has. -/
def empty : EffectSet := ⟨false, false, false, false, false⟩

instance : Inhabited EffectSet := ⟨empty⟩

/-- An effect belongs to the set, as the flag of its kind says. -/
def contains (effects : EffectSet) : SideEffect → Bool
  | .fileIo => effects.fileIo
  | .envRead => effects.envRead
  | .network => effects.network
  | .database => effects.database
  | .subprocess => effects.subprocess

/-- The set of the effects that pass a test. -/
def ofTest (test : SideEffect → Bool) : EffectSet :=
  ⟨test .fileIo, test .envRead, test .network, test .database, test .subprocess⟩

/-- The set of the effects in a list. -/
def ofList (effects : List SideEffect) : EffectSet :=
  ofTest fun effect => effects.contains effect

/-- The members in their order, which is that of the kinds. -/
def toList (effects : EffectSet) : List SideEffect :=
  (Named.all : List SideEffect).filter effects.contains

/-- The effects of either set, each kind for itself. -/
def union (left right : EffectSet) : EffectSet :=
  ofTest fun effect => left.contains effect || right.contains effect

/-- The effects of all sets of a list. -/
def unionAll (sets : List EffectSet) : EffectSet :=
  sets.foldr union empty

/-- The set has no member, so the function has no side effect of its own. -/
def isEmpty (effects : EffectSet) : Bool :=
  effects == empty

/-- The names of the members in their order. -/
def names (effects : EffectSet) : List String :=
  effects.toList.map Named.name

@[simp]
theorem contains_ofTest (test : SideEffect → Bool) (effect : SideEffect) :
    (ofTest test).contains effect = test effect := by
  cases effect <;> rfl

@[simp]
theorem contains_empty (effect : SideEffect) : empty.contains effect = false := by
  cases effect <;> rfl

/-- Two sets with the same members are equal. -/
theorem ext_contains {left right : EffectSet}
    (same : ∀ effect, left.contains effect = right.contains effect) : left = right := by
  cases left
  cases right
  have file := same .fileIo
  have environment := same .envRead
  have net := same .network
  have data := same .database
  have process := same .subprocess
  simp only [contains] at file environment net data process
  subst file environment net data process
  rfl

@[simp]
theorem contains_union (left right : EffectSet) (effect : SideEffect) :
    (left.union right).contains effect = (left.contains effect || right.contains effect) := by
  simp [union]

theorem contains_unionAll (sets : List EffectSet) (effect : SideEffect) :
    (unionAll sets).contains effect ↔ ∃ set ∈ sets, set.contains effect := by
  induction sets with
  | nil => simp [unionAll]
  | cons set sets inductionHypothesis =>
    rw [unionAll, List.foldr_cons, contains_union, Bool.or_eq_true, ← unionAll, inductionHypothesis]
    simp only [List.mem_cons, exists_eq_or_imp]

theorem union_empty (effects : EffectSet) : effects.union empty = effects := by
  refine ext_contains fun effect => ?_
  rw [contains_union, contains_empty, Bool.or_false]

theorem empty_union (effects : EffectSet) : empty.union effects = effects := by
  refine ext_contains fun effect => ?_
  rw [contains_union, contains_empty, Bool.false_or]

theorem union_assoc (first second third : EffectSet) :
    (first.union second).union third = first.union (second.union third) := by
  refine ext_contains fun effect => ?_
  rw [contains_union, contains_union, contains_union, contains_union, Bool.or_assoc]

/-- The members of a set make up the set again. -/
theorem ofList_toList (effects : EffectSet) : ofList effects.toList = effects := by
  refine ext_contains fun effect => ?_
  rw [ofList, contains_ofTest]
  cases effect <;> simp [toList, Named.all]

end EffectSet

instance : ToValue EffectSet := ⟨fun effects => toValue effects.toList⟩
instance : OfValue EffectSet := ⟨fun value => (ofValue? value).map EffectSet.ofList⟩

end MigrationGuard
