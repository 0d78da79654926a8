/-!
# Civil date-times

Dates of the proleptic Gregorian calendar with a time of day, without a zone. A second may hold
more than 10⁹ nanoseconds: that is a leap second. Years may be zero, negative or beyond 9999.
-/

namespace Sqlwright

/-- A civil date and time of day. -/
structure DateTime where
  year : Int
  month : Nat
  day : Nat
  hour : Nat
  minute : Nat
  second : Nat
  nanosecond : Nat
  deriving DecidableEq, Repr

namespace Calendar

/-- The days from 1970-01-01 to a date. Years are counted from March, so that the leap day comes
last, and in cycles of 400 years. -/
def dayNumber (year : Int) (month day : Nat) : Int :=
  let y := if month ≤ 2 then year - 1 else year
  let cycle := y.fdiv 400
  let yearOfCycle := y - cycle * 400
  let shifted : Int := ((month + 9) % 12 : Nat)
  let dayOfYear := (153 * shifted + 2) / 5 + (day : Int) - 1
  let dayOfCycle := yearOfCycle * 365 + yearOfCycle / 4 - yearOfCycle / 100 + dayOfYear
  cycle * 146097 + dayOfCycle - 719468

/-- The date that lies a number of days after 1970-01-01, as year, month and day. -/
def dateOfDay (n : Int) : Int × Nat × Nat :=
  let z := n + 719468
  let cycle := z.fdiv 146097
  let dayOfCycle := z - cycle * 146097
  let yearOfCycle :=
    (dayOfCycle - dayOfCycle / 1460 + dayOfCycle / 36524 - dayOfCycle / 146096) / 365
  let dayOfYear := dayOfCycle - (365 * yearOfCycle + yearOfCycle / 4 - yearOfCycle / 100)
  let shifted := (5 * dayOfYear + 2) / 153
  let day := dayOfYear - (153 * shifted + 2) / 5 + 1
  let month := if shifted < 10 then shifted + 3 else shifted - 9
  let year := yearOfCycle + cycle * 400 + (if month ≤ 2 then 1 else 0)
  (year, month.toNat, day.toNat)

end Calendar

namespace DateTime

/-- The start of a date. -/
def atMidnight (year : Int) (month day : Nat) : DateTime := ⟨year, month, day, 0, 0, 0, 0⟩

/-- The same instant in universal time, for a local time `east` seconds ahead of it. -/
def toUniversal (t : DateTime) (east : Int) : DateTime :=
  let seconds := Calendar.dayNumber t.year t.month t.day * 86400
    + ((t.hour * 3600 + t.minute * 60 + t.second : Nat) : Int) - east
  let days := seconds.fdiv 86400
  let rest := (seconds - days * 86400).toNat
  let (year, month, day) := Calendar.dateOfDay days
  ⟨year, month, day, rest / 3600, rest / 60 % 60, rest % 60, t.nanosecond⟩

/-- A number with zeros in front up to a width. -/
def padded (width n : Nat) : String :=
  let ds := Nat.toDigits 10 n
  String.ofList (List.replicate (width - ds.length) '0' ++ ds)

/-- Years of four digits stand plain; all others carry a sign. -/
def yearText (year : Int) : String :=
  if 0 ≤ year ∧ year ≤ 9999 then padded 4 year.toNat
  else (if year < 0 then "-" else "+") ++ padded 4 year.natAbs

/-- The text `year-month-day hour:minute:second.milliseconds`. In a leap second the second
counts one more. -/
def text (t : DateTime) : String :=
  yearText t.year ++ "-" ++ padded 2 t.month ++ "-" ++ padded 2 t.day ++ " "
    ++ padded 2 t.hour ++ ":" ++ padded 2 t.minute ++ ":"
    ++ padded 2 (t.second + t.nanosecond / 1000000000) ++ "."
    ++ padded 3 (t.nanosecond % 1000000000 / 1000000)

end DateTime

end Sqlwright
