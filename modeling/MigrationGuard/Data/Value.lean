/-
This file holds the values that data files are made of, and how domain types are
written as such values and read back. A structure is a record of its fields; it
may also be given as a list of its fields in order of declaration. Fields that are
not known are passed over, a field that is given twice is refused. Whether a field
has to be given, has a value of its own or may be left out is said where the
structure is read. One kind of value stands for what a format can spell but no
reader can use, so that it harms only those that ask for it.
-/

namespace MigrationGuard.Data

/-! ### Values -/

/-- A value of a data file, whatever format it was written in. -/
inductive Value where
  /-- The absent value, which is not the same as no value at all. -/
  | null
  /-- A truth value. -/
  | bool (value : Bool)
  | integer (value : Int)
  /-- A floating-point number. -/
  | float (value : Float)
  | text (value : String)
  /-- Values in order. -/
  | list (items : List Value)
  /-- Named values in the order in which they were written, repeated names included. -/
  | record (members : List (String × Value))
  /-- A value that may be passed over but not read, such as a number out of range. -/
  | unreadable
  deriving Inhabited, Repr

namespace Value

/-- The members of a record. Other values have none. -/
def members : Value → List (String × Value)
  | .record members => members
  | _ => []

/-- The values given under a name, in order. There are several of them where a name is repeated. -/
def givenUnder (name : String) (members : List (String × Value)) : List Value :=
  (members.filter fun member => member.1 == name).map Prod.snd

/-- The value of a member, the last one if the name is repeated. -/
def get? (value : Value) (name : String) : Option Value :=
  (givenUnder name value.members).getLast?

/-- The value at a chain of member names, from the outermost record inwards. -/
def at? (value : Value) (names : List String) : Option Value :=
  names.foldl (fun found name => found.bind fun inner => inner.get? name) (some value)

mutual

/-- No part of the value is unreadable, however deep it lies. -/
def isReadable : Value → Bool
  | .unreadable => false
  | .list items => areReadable items
  | .record members => areReadableMembers members
  | _ => true

/-- No item is unreadable, and neither is any part of one. -/
def areReadable : List Value → Bool
  | [] => true
  | item :: items => item.isReadable && areReadable items

/-- No member is unreadable, and neither is any part of one. -/
def areReadableMembers : List (String × Value) → Bool
  | [] => true
  | member :: members => member.2.isReadable && areReadableMembers members

end

/-! ### Reading plain values -/

/-- The truth value. Nothing else stands for one, numbers and texts included. -/
def toBool? : Value → Option Bool
  | .bool value => some value
  | _ => none

/-- The text. Numbers are not turned into texts. -/
def toText? : Value → Option String
  | .text value => some value
  | _ => none

/-- The integer. A floating-point number is none, even if it is whole. -/
def toInt? : Value → Option Int
  | .integer value => some value
  | _ => none

/-- The natural number, if it is below the bound. -/
def toNatBelow? (bound : Nat) : Value → Option Nat
  | .integer value => if 0 ≤ value ∧ value < bound then some value.toNat else none
  | _ => none

/-- The floating-point number. An integer stands for the nearest one. -/
def toFloat? : Value → Option Float
  | .float value => some value
  | .integer value =>
    some (if value < 0 then -(Float.ofNat value.natAbs) else Float.ofNat value.natAbs)
  | _ => none

/-- The items of a list. A single value is no list of one item. -/
def toList? : Value → Option (List Value)
  | .list items => some items
  | _ => none

end Value

/-! ### Writing and reading domain types -/

/-- How a type is written as a value, so that a file can hold it. -/
class ToValue (α : Type) where
  /-- The value that stands for the given one. -/
  toValue : α → Value

/-- How a type is read from a value that a file held. -/
class OfValue (α : Type) where
  /-- What the value stands for, if it has the right shape. -/
  ofValue? : Value → Option α

export ToValue (toValue)
export OfValue (ofValue?)

instance : ToValue Value := ⟨id⟩
instance : ToValue Bool := ⟨.bool⟩
instance : ToValue Nat := ⟨fun value => .integer value⟩
instance : ToValue Int := ⟨.integer⟩
instance : ToValue Float := ⟨.float⟩
instance : ToValue Float32 := ⟨fun value => .float value.toFloat⟩
instance : ToValue String := ⟨.text⟩
instance : ToValue Unit := ⟨fun _ => .null⟩

instance {α : Type} [ToValue α] : ToValue (Option α) where
  toValue
    | some value => toValue value
    | none => .null

instance {α : Type} [ToValue α] : ToValue (List α) where
  toValue items := .list (items.map toValue)

instance {α β : Type} [ToValue α] [ToValue β] : ToValue (α × β) where
  toValue pair := .list [toValue pair.1, toValue pair.2]

instance : OfValue Value := ⟨some⟩
instance : OfValue Bool := ⟨Value.toBool?⟩
instance : OfValue Float := ⟨Value.toFloat?⟩
instance : OfValue String := ⟨Value.toText?⟩

/-- Counts are read within sixty-four bits. -/
instance : OfValue Nat := ⟨Value.toNatBelow? (Nat.pow 2 64)⟩

/-- Integers are read within sixty-four bits with a sign. -/
instance : OfValue Int where
  ofValue? value := value.toInt?.filter fun number =>
    -(Nat.pow 2 63 : Int) ≤ number && number < Nat.pow 2 63

instance {α : Type} [OfValue α] : OfValue (Option α) where
  ofValue?
    | .null => some none
    | value => (ofValue? value).map some

instance {α : Type} [OfValue α] : OfValue (List α) where
  ofValue? value := value.toList?.bind fun items => items.mapM ofValue?

instance {α β : Type} [OfValue α] [OfValue β] : OfValue (α × β) where
  ofValue? value := do
    match ← value.toList? with
    | [first, second] => return (← ofValue? first, ← ofValue? second)
    | _ => none

/-! ### Records -/

/-- What stands in one field of a structure, before the type of the field is known. -/
inductive Slot where
  /-- A value was given. -/
  | given (value : Value)
  /-- The record does not name the field. -/
  | missing
  /-- The list of fields ends before this one. -/
  | cutOff
  deriving Inhabited, Repr

/-- The slot of a named field. None if the field is given twice. -/
def Slot.ofMembers? (members : List (String × Value)) (name : String) : Option Slot :=
  match Value.givenUnder name members with
  | [] => some .missing
  | [value] => some (.given value)
  | _ => none

/-- The slots of a structure with the given field names, be it given as a record or as a list. A
list may end early but holds nothing beyond the fields. -/
def Value.slots? (value : Value) (names : List String) : Option (List Slot) :=
  match value with
  | .record members => names.mapM (Slot.ofMembers? members)
  | .list items =>
    if items.length ≤ names.length then
      some (items.map .given ++ List.replicate (names.length - items.length) .cutOff)
    else none
  | _ => none

/-- A field that has to be given. A null counts as given and is read by its type. -/
def Slot.required {α : Type} [OfValue α] : Slot → Option α
  | .given value => ofValue? value
  | _ => none

/-- A field with a value of its own where none is given. What is given has to be readable all the
same. -/
def Slot.withDefault {α : Type} [OfValue α] (fallback : α) : Slot → Option α
  | .given value => ofValue? value
  | _ => some fallback

/-- A field that a record may leave out. A list has to reach it. -/
def Slot.optional {α : Type} [OfValue α] : Slot → Option (Option α)
  | .given value => ofValue? value
  | .missing => some none
  | .cutOff => none

/-! ### Words for alternatives -/

/-- The word of an alternative without further data: a text, or a record that gives it null. -/
def Value.word? : Value → Option String
  | .text word => some word
  | .record [(word, .null)] => some word
  | _ => none

/-- The alternative that a word names, among those that are listed with their words. -/
def ofWord? {α : Type} (alternatives : List (String × α)) (value : Value) : Option α :=
  value.word?.bind fun word => alternatives.lookup word

end MigrationGuard.Data
