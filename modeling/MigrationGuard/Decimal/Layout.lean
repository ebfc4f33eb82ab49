/-
This file lays decimals out as text: plainly with a point and never an exponent,
in the compact form of data files, or with a fixed number of places. The compact
form writes a number out as long as its point is not too far from its first digit,
and gives it an exponent elsewhere; where that begins depends on the format of the
number. What is no finite number has a word in the plain form and no text at all
in the compact one, which leaves it to the data format what to write instead.
-/

import MigrationGuard.Decimal.Shortest

namespace MigrationGuard.Decimal

/-! ### Positional text -/

/-- The digits of a natural number, the first of which is zero only for zero itself. -/
def digitText (value : Nat) : String :=
  String.ofList (Nat.toDigits 10 value)

/-- A number of zeros, as they stand between a point and the first digit or behind the last one. -/
def zeros (count : Nat) : String :=
  String.ofList (List.replicate count '0')

/-- The whole part and the digits behind the point, where the exponent puts it. -/
def Scientific.parts (decimal : Scientific) : String × String :=
  let digits := digitText decimal.digits
  if 0 ≤ decimal.exponent then (digits ++ zeros decimal.exponent.toNat, "")
  else
    let places := (-decimal.exponent).toNat
    if digits.length ≤ places then ("0", zeros (places - digits.length) ++ digits)
    else
      let whole := digits.length - places
      (String.ofList (digits.toList.take whole), String.ofList (digits.toList.drop whole))

/-- The text without an exponent. The point appears only before further digits. -/
def Scientific.plain (decimal : Scientific) : String :=
  let (whole, places) := decimal.parts
  if places = "" then whole else whole ++ "." ++ places

/-- The positions of the point, counted from the first digit, at which data files write a number
out. Elsewhere they give it an exponent. -/
structure PlainRange where
  /-- All positions that are written out are above this one. -/
  above : Int
  /-- The last position that is written out. -/
  upTo : Int

/-- Doubles are written out from the fifth place behind the point up to sixteen digits before it. -/
def PlainRange.ofDouble : PlainRange := ⟨-5, 16⟩

/-- Singles are written out from the sixth place behind the point up to thirteen digits before it. -/
def PlainRange.ofSingle : PlainRange := ⟨-6, 13⟩

/-- The text of an exponent. It always has a sign. -/
def exponentText (exponent : Int) : String :=
  if 0 ≤ exponent then "+" ++ toString exponent else toString exponent

/-- The text of data files. A number that is written out keeps a digit behind the point, so that it
is not taken for an integer. -/
def Scientific.compact (range : PlainRange) (decimal : Scientific) : String :=
  let digits := digitText decimal.digits
  let position := (digits.length : Int) + decimal.exponent
  if range.above < position ∧ position ≤ range.upTo then
    let (whole, places) := decimal.parts
    whole ++ "." ++ (if places = "" then "0" else places)
  else
    let first := String.ofList (digits.toList.take 1)
    let others := String.ofList (digits.toList.drop 1)
    let mantissa := if others = "" then first else first ++ "." ++ others
    mantissa ++ "e" ++ exponentText (position - 1)

/-- The sign of a number as text. Only a minus is written. -/
def signText (negative : Bool) : String :=
  if negative then "-" else ""

/-! ### Shortest text of floating-point numbers -/

/-- The plain text of a reading, with words for what is no finite number. -/
def Reading.plain : Reading → String
  | .notANumber => "NaN"
  | .infinite negative => signText negative ++ "inf"
  | .zero negative => signText negative ++ "0"
  | .finite negative magnitude => signText negative ++ magnitude.shortest.plain

/-- The compact text of a reading, if it is a number. -/
def Reading.compact? (range : PlainRange) : Reading → Option String
  | .notANumber => none
  | .infinite _ => none
  | .zero negative => some (signText negative ++ "0.0")
  | .finite negative magnitude => some (signText negative ++ magnitude.shortest.compact range)

/-- The shortest plain text of a double that reads back to it. -/
def plainText (value : Float) : String :=
  (readDouble value).plain

/-- The shortest plain text of a single that reads back to it. -/
def plainTextSingle (value : Float32) : String :=
  (readSingle value).plain

/-! ### Fixed places -/

/-- The quotient rounded to the nearest integer, a half to the even one. -/
def roundQuotient (numerator denominator : Nat) : Nat :=
  let below := numerator / denominator
  let twice := 2 * (numerator % denominator)
  if twice < denominator || (twice == denominator && below % 2 == 0) then below else below + 1

/-- The text of a binary number with a fixed number of places, rounded from its exact value. -/
def Binary.fixed (value : Binary) (places : Nat) : String :=
  let scaled := (Fraction.ofBinary value.significand value.exponent).shift (-(places : Int))
  let digits := roundQuotient scaled.numerator scaled.denominator
  let whole := digitText (digits / Nat.pow 10 places)
  let behind := digitText (digits % Nat.pow 10 places)
  if places = 0 then whole else whole ++ "." ++ zeros (places - behind.length) ++ behind

/-- The text of a double with a fixed number of places, as it stands in tables and messages. -/
def fixedText (places : Nat) (value : Float) : String :=
  match readDouble value with
  | .notANumber => "NaN"
  | .infinite negative => signText negative ++ "inf"
  | .zero negative =>
    signText negative ++ (if places = 0 then "0" else "0." ++ zeros places)
  | .finite negative magnitude => signText negative ++ magnitude.fixed places

end MigrationGuard.Decimal
