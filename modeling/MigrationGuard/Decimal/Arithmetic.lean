/-
This file names the arithmetic that percentages and scores are computed in. The
formulas of the library are written once for every such arithmetic: floating-point
numbers are what a program reports, rational numbers are what the formulas mean.
So a theorem about a formula can be stated for both, and where rounding makes a
difference it can be said how large that is. The order is part of the arithmetic
as two tests, as there is a double that stands in no order.
-/

namespace MigrationGuard

/-- The arithmetic of percentages and scores. An instance says how the numbers of a formula are
made, compared and rounded. -/
class Arithmetic (α : Type) extends Add α, Sub α, Mul α, Div α where
  /-- A count as a number of this arithmetic. -/
  count : Nat → α
  /-- The decimal with the given digits, the given number of which stand behind the point. -/
  decimal : Nat → Nat → α
  /-- The strict order. What is no number stands in no order. -/
  less : α → α → Bool
  /-- The order that admits equal numbers. What is no number stands in it neither. -/
  atMost : α → α → Bool
  /-- The nearest whole number. A half goes away from zero. -/
  nearest : α → α

namespace Arithmetic

variable {α : Type} [Arithmetic α]

/-- The smaller of two numbers, the second one if neither is smaller. -/
def smaller (left right : α) : α :=
  if less left right then left else right

/-- The number moved into an interval. A number that stands in no order stays what it is. -/
def clamp (low high value : α) : α :=
  if less value low then low else if less high value then high else value

/-- The number rounded to a number of places behind the point. -/
def roundTo (places : Nat) (value : α) : α :=
  nearest (value * count (Nat.pow 10 places)) / count (Nat.pow 10 places)

end Arithmetic

/-- The whole double nearest to a double. A half goes away from zero, and the sign is kept. From two
to the power of fifty-two on every double is whole. -/
def nearestDouble (value : Float) : Float :=
  let size := value.abs
  if size < 4503599627370496.0 then
    let below := size.toUInt64.toFloat
    let nearest := if size - below < 0.5 then below else below + 1.0
    if value.toBits >>> 63 == 1 then -nearest else nearest
  else value

/-- Doubles. -/
instance : Arithmetic Float where
  count := Float.ofNat
  decimal digits places := Float.ofScientific digits true places
  less left right := left < right
  atMost left right := left ≤ right
  nearest := nearestDouble

/-- The whole number nearest to a rational. A half goes away from zero. -/
def nearestWhole (value : Rat) : Int :=
  if value < 0 then -(Rat.floor (-value + 1 / 2)) else Rat.floor (value + 1 / 2)

/-- Rational numbers. -/
instance : Arithmetic Rat where
  count value := (value : Rat)
  decimal digits places := (digits : Rat) / (Nat.pow 10 places : Rat)
  less left right := left < right
  atMost left right := left ≤ right
  nearest value := (nearestWhole value : Rat)

end MigrationGuard
