/-
This file reads decimal numbers. The digits are collected exactly; the nearest
floating-point number is taken at the end, so reading rounds once. A text may
spell a number in several ways, with or without a sign, a point or an exponent,
and by the words for an infinity and for what is no number. Everything else is
refused, blanks around the number included.
-/

import MigrationGuard.Decimal.Shortest
import MigrationGuard.Text.Search

namespace MigrationGuard.Decimal

/-! ### Digits -/

/-- The value of a decimal digit, of a character that is known to be one. -/
def digitValue (character : Char) : Nat :=
  character.toNat - 48

/-- The number that a run of decimal digits spells. Zeros at its front do not matter. -/
def digitsValue (digits : List Char) : Nat :=
  digits.foldl (fun value digit => 10 * value + digitValue digit) 0

/-- The number of a text that holds digits only, and at least one. -/
def natural? (text : List Char) : Option Nat :=
  if text ≠ [] ∧ text.all Char.isDigit then some (digitsValue text) else none

/-- The double nearest to `digits * 10 ^ exponent`. Beyond four hundred places the result is an
infinity or zero whatever the digits are. -/
def toFloat (digits : Nat) (exponent : Int) : Float :=
  let position := (digitCount digits : Int) + exponent
  if digits = 0 then 0.0
  else if 400 < position then 1.0 / 0.0
  else if position < -400 then 0.0
  else if 0 ≤ exponent then Float.ofScientific (digits * Nat.pow 10 exponent.toNat) false 0
  else Float.ofScientific digits true (-exponent).toNat

/-! ### Numerals -/

/-- A numeral with its sign left out, before it is rounded. -/
structure Numeral where
  /-- All digits, those behind the point included. -/
  digits : Nat
  /-- The power of ten that they are multiplied by. -/
  exponent : Int
  deriving DecidableEq, Repr

/-- The double nearest to a numeral, with its sign put back. -/
def Numeral.toFloat (numeral : Numeral) (negative : Bool) : Float :=
  let value := Decimal.toFloat numeral.digits numeral.exponent
  if negative then -value else value

/-- The exponent that a text spells: digits with an optional sign and nothing else. -/
def exponent? (text : List Char) : Option Int :=
  match text with
  | '+' :: digits => (natural? digits).map Int.ofNat
  | '-' :: digits => (natural? digits).map fun value => -(value : Int)
  | digits => (natural? digits).map Int.ofNat

/-- The numeral that a text spells: digits with at most one point among them, then possibly an
exponent. At least one digit has to stand before or behind the point. -/
def numeral? (text : List Char) : Option Numeral :=
  let whole := text.takeWhile Char.isDigit
  let rest := text.dropWhile Char.isDigit
  let (places, tail) := match rest with
    | '.' :: others => (others.takeWhile Char.isDigit, others.dropWhile Char.isDigit)
    | others => ([], others)
  if whole = [] ∧ places = [] then none
  else
    let digits := digitsValue (whole ++ places)
    match tail with
    | [] => some ⟨digits, -(places.length : Int)⟩
    | mark :: others =>
      if mark = 'e' ∨ mark = 'E' then
        (exponent? others).map fun exponent => ⟨digits, exponent - places.length⟩
      else none

/-- The number that a text spells without regard to its sign, words for the special values
included in any letter case. -/
def unsigned? (text : List Char) (negative : Bool) : Option Float :=
  let word := Text.lowered (String.ofList text)
  if word = "inf" ∨ word = "infinity" then some (if negative then -1.0 / 0.0 else 1.0 / 0.0)
  else if word = "nan" then some (0.0 / 0.0)
  else (numeral? text).map fun numeral => numeral.toFloat negative

/-- The double that a text spells, with an optional sign and nothing around it. -/
def float? (text : String) : Option Float :=
  match text.toList with
  | '+' :: rest => unsigned? rest false
  | '-' :: rest => unsigned? rest true
  | rest => unsigned? rest false

end MigrationGuard.Decimal
