/-
This file tells the day of a moment, and writes days and moments. Moments are
milliseconds since the beginning of 1970 in universal time, and may lie before it.
Days are computed from the number of days since then, four hundred years at a
time, as the calendar repeats itself after that. Years outside the range that can
be told have no text.
-/

import MigrationGuard.Decimal.Layout

namespace MigrationGuard

/-- A day of the calendar. Years before the first one are negative. -/
structure CalendarDay where
  year : Int
  month : Nat
  /-- The day of the month, from one. -/
  day : Nat
  deriving DecidableEq, Repr

namespace Calendar

/-- The milliseconds of a day. Leap seconds are not counted. -/
def dayLength : Int := 86400000

/-- The number of the day of a moment, counted from the first day of 1970. Moments before it have
negative days. -/
def dayNumber (moment : Int) : Int :=
  moment.fdiv dayLength

/-- The day with a number. Years are counted from March, so that the odd day of a leap year comes
last; four hundred years have 146097 days. -/
def dayOfNumber (number : Int) : CalendarDay :=
  let shifted := number + 719468
  let era := shifted.fdiv 146097
  let dayOfEra := (shifted - era * 146097).toNat
  let yearOfEra := (dayOfEra - dayOfEra / 1460 + dayOfEra / 36524 - dayOfEra / 146096) / 365
  let dayOfYear := dayOfEra - (365 * yearOfEra + yearOfEra / 4 - yearOfEra / 100)
  let shiftedMonth := (5 * dayOfYear + 2) / 153
  let day := dayOfYear - (153 * shiftedMonth + 2) / 5 + 1
  let month := if shiftedMonth < 10 then shiftedMonth + 3 else shiftedMonth - 9
  let year := (yearOfEra : Int) + era * 400
  ⟨if month ≤ 2 then year + 1 else year, month, day⟩

/-- The day of a moment in universal time. -/
def dayOf (moment : Int) : CalendarDay :=
  dayOfNumber (dayNumber moment)

/-! ### Text -/

/-- A number with zeros before it up to a width. Longer numbers are written as they are. -/
def padded (width value : Nat) : String :=
  let digits := Decimal.digitText value
  Decimal.zeros (width - digits.length) ++ digits

/-- The text of a year. A year outside the four digits has a sign, so that texts can be told apart.
-/
def yearText (year : Int) : String :=
  if 0 ≤ year ∧ year ≤ 9999 then padded 4 year.toNat
  else if year < 0 then "-" ++ padded 4 year.natAbs
  else "+" ++ padded 4 year.toNat

/-- The text of a day: year, month and day with dashes between them. -/
def dayText (day : CalendarDay) : String :=
  yearText day.year ++ "-" ++ padded 2 day.month ++ "-" ++ padded 2 day.day

/-- The first and the last year that can be told. Moments beyond them have no day. -/
def knownYears : Int × Int := (-262143, 262142)

/-- The text of the day of a moment, if its year can be told. -/
def dayText? (moment : Int) : Option String :=
  let day := dayOf moment
  if knownYears.1 ≤ day.year ∧ day.year ≤ knownYears.2 then some (dayText day) else none

/-- The text of a moment with its time of day, as it stands in reports and stored records. -/
def momentText (moment : Int) : String :=
  let rest := (moment - dayNumber moment * dayLength).toNat
  dayText (dayOf moment) ++ "T" ++ padded 2 (rest / 3600000) ++ ":" ++
    padded 2 (rest / 60000 % 60) ++ ":" ++ padded 2 (rest / 1000 % 60) ++ "." ++
    padded 3 (rest % 1000) ++ "+00:00"

end Calendar

end MigrationGuard
