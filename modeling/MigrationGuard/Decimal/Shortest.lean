/-
This file finds the shortest decimal that reads back to a binary floating-point
number. The number is taken apart into a significand and a power of two; the
decimal is searched on ever finer decimal grids, in exact arithmetic, and the
first grid with a point among the reals that round to the number wins. If a grid
has two such points the nearer one is taken. So no text with fewer digits would
do, and what is written is read back as the very same number.
-/

namespace MigrationGuard.Decimal

/-! ### Binary numbers taken apart -/

/-- A positive binary number `significand * 2 ^ exponent`. -/
structure Binary where
  /-- The integer factor. -/
  significand : Nat
  /-- The power of two. -/
  exponent : Int
  /-- The next number below is only half as far away as the next one above. -/
  narrowBelow : Bool
  deriving DecidableEq, Repr

/-- What the bits of a floating-point number say, with the sign kept apart. -/
inductive Reading where
  | notANumber
  | infinite (negative : Bool)
  /-- A zero with its sign. -/
  | zero (negative : Bool)
  /-- Any other number with its sign. -/
  | finite (negative : Bool) (magnitude : Binary)
  deriving DecidableEq, Repr

/-- Reads the fields of an interchange format with the given number of fraction bits, exponent bits
and lowest exponent. -/
def readFields (fractionBits exponentBits : Nat) (lowest : Int) (bits : Nat) : Reading :=
  let fraction := bits % Nat.pow 2 fractionBits
  let field := bits / Nat.pow 2 fractionBits % Nat.pow 2 exponentBits
  let negative := bits / Nat.pow 2 (fractionBits + exponentBits) % 2 == 1
  if field == Nat.pow 2 exponentBits - 1 then
    if fraction == 0 then .infinite negative else .notANumber
  else if field == 0 then
    if fraction == 0 then .zero negative else .finite negative ⟨fraction, lowest, false⟩
  else
    .finite negative ⟨Nat.pow 2 fractionBits + fraction, lowest + (field - 1 : Nat),
      fraction == 0 && field != 1⟩

/-- Reads a double from its bits: fifty-two of its fraction, eleven of its exponent. -/
def readDouble (value : Float) : Reading :=
  readFields 52 11 (-1074) value.toBits.toNat

/-- Reads a single from its bits: twenty-three of its fraction, eight of its exponent. -/
def readSingle (value : Float32) : Reading :=
  readFields 23 8 (-149) value.toBits.toNat

/-! ### Fractions and decimal positions -/

/-- A fraction of natural numbers, which need not be in lowest terms. -/
structure Fraction where
  /-- The number above the line. -/
  numerator : Nat
  /-- The number below the line. -/
  denominator : Nat

/-- The fraction `significand * 2 ^ exponent`, whose denominator is one or a power of two. -/
def Fraction.ofBinary (significand : Nat) (exponent : Int) : Fraction :=
  if 0 ≤ exponent then ⟨significand * Nat.pow 2 exponent.toNat, 1⟩
  else ⟨significand, Nat.pow 2 (-exponent).toNat⟩

/-- The fraction divided by a power of ten, which moves its decimal point. -/
def Fraction.shift (fraction : Fraction) (places : Int) : Fraction :=
  if 0 ≤ places then ⟨fraction.numerator, fraction.denominator * Nat.pow 10 places.toNat⟩
  else ⟨fraction.numerator * Nat.pow 10 (-places).toNat, fraction.denominator⟩

/-- The number of digits of a natural number, none for zero. -/
def digitCount (value : Nat) : Nat :=
  if value = 0 then 0 else (Nat.toDigits 10 value).length

/-- The number of zeros behind the point of a fraction below one, found within a number of steps. -/
def leadingZeros : Nat → Fraction → Nat
  | 0, _ => 0
  | steps + 1, fraction =>
    if fraction.denominator ≤ fraction.numerator * 10 then 0
    else leadingZeros steps ⟨fraction.numerator * 10, fraction.denominator⟩ + 1

/-- The position of the first digit: the exponent `e` with `10 ^ (e - 1) ≤ fraction < 10 ^ e`. A
double has fewer than four hundred zeros behind its point. -/
def Fraction.position (fraction : Fraction) : Int :=
  let whole := fraction.numerator / fraction.denominator
  if whole = 0 then -(leadingZeros 400 fraction : Int) else digitCount whole

/-! ### Searching the grids -/

/-- A decimal `digits * 10 ^ exponent`. -/
structure Scientific where
  /-- The integer whose digits are written. -/
  digits : Nat
  /-- The power of ten. -/
  exponent : Int
  deriving DecidableEq, Repr

/-- Moves the zeros at the end of the digits into the exponent, within a number of steps. -/
def stripZeros : Nat → Scientific → Scientific
  | 0, decimal => decimal
  | steps + 1, decimal =>
    if decimal.digits ≠ 0 ∧ decimal.digits % 10 = 0 then
      stripZeros steps ⟨decimal.digits / 10, decimal.exponent + 1⟩
    else decimal

/-- The two fractions are ordered so, or equal where that is allowed. -/
def Fraction.before (inclusive : Bool) (left right : Fraction) : Bool :=
  let leftScaled := left.numerator * right.denominator
  let rightScaled := right.numerator * left.denominator
  leftScaled < rightScaled || (inclusive && leftScaled == rightScaled)

/-- The reals that round to a binary number: half a step to either side, the ends included exactly
if the significand is even. Everything is counted in quarter steps. -/
def Binary.rounds (value : Binary) (places : Int) (digits : Nat) : Bool :=
  let quarters := fun count => (Fraction.ofBinary count (value.exponent - 2)).shift places
  let inclusive := value.significand % 2 == 0
  let low := 4 * value.significand - (if value.narrowBelow then 1 else 2)
  let high := 4 * value.significand + 2
  Fraction.before inclusive (quarters low) ⟨digits, 1⟩ &&
    Fraction.before inclusive ⟨digits, 1⟩ (quarters high)

/-- The lower of the two grid points around the number is the nearer one. A tie goes to the even
digit. -/
def nearerBelow (scaled : Fraction) (below : Nat) : Bool :=
  let twice := 2 * (scaled.numerator - below * scaled.denominator)
  twice < scaled.denominator || (twice == scaled.denominator && below % 2 == 0)

/-- The point of one grid that reads back, the nearer one if both neighbours do. -/
def Binary.onGrid? (value : Binary) (places : Int) : Option Scientific :=
  let scaled := (Fraction.ofBinary value.significand value.exponent).shift places
  let below := scaled.numerator / scaled.denominator
  let lowFits := below != 0 && value.rounds places below
  let highFits := value.rounds places (below + 1)
  if lowFits && (!highFits || nearerBelow scaled below) then some ⟨below, places⟩
  else if highFits then some ⟨below + 1, places⟩
  else none

/-- The first of the grids with one digit, two digits and so on that has a point which reads
back. -/
def Binary.search (value : Binary) (position : Int) : Nat → Int → Option Scientific
  | 0, _ => none
  | steps + 1, count =>
    match value.onGrid? (position - count) with
    | some decimal => some decimal
    | none => value.search position steps (count + 1)

/-- The shortest decimal that reads back to a binary number. Seventeen digits always suffice for a
double, so the exact value in the last line is never needed. -/
def Binary.shortest (value : Binary) : Scientific :=
  let fraction := Fraction.ofBinary value.significand value.exponent
  match value.search fraction.position 20 1 with
  | some decimal => stripZeros 400 decimal
  | none => ⟨fraction.numerator / fraction.denominator, 0⟩

end MigrationGuard.Decimal
