/-! # Points in time

    Reports give the time in UTC as `YYYY-MM-DDThh:mm:ssZ`.

    * `Date.ofDays` is the Gregorian date a number of days after 1970-01-01, and
      `Date.daysInMonth` is the length of a month.
    * `Moment` is a date and a time of day; `Moment.ofUnix?` reads seconds
      since 1970, with nanoseconds that may reach into a leap second.
    * `Moment.render` writes it. -/

namespace BillOfMaterials

/-! ## Dates -/

structure Date where
  year : Int
  month : Nat
  day : Nat
  deriving DecidableEq, Repr

/-- The date a number of days after 1970-01-01.  Years are counted from March,
    so that the leap day ends a year, in eras of 400 years. -/
def Date.ofDays (days : Int) : Date :=
  let fromEra := days + 719468
  let era := fromEra / 146097
  let dayOfEra := (fromEra % 146097).toNat
  let yearOfEra :=
    (dayOfEra - dayOfEra / 1460 + dayOfEra / 36524 - dayOfEra / 146096) / 365
  let dayOfYear := dayOfEra - (365 * yearOfEra + yearOfEra / 4 - yearOfEra / 100)
  let monthFromMarch := (5 * dayOfYear + 2) / 153
  let month := if monthFromMarch < 10 then monthFromMarch + 3 else monthFromMarch - 9
  { year := era * 400 + yearOfEra + (if month ≤ 2 then 1 else 0)
    month
    day := dayOfYear - (153 * monthFromMarch + 2) / 5 + 1 }

/-- How many days a month has. -/
def Date.daysInMonth (year month : Nat) : Nat :=
  if month = 2 then
    if year % 4 = 0 ∧ (year % 100 ≠ 0 ∨ year % 400 = 0) then 29 else 28
  else if month ∈ [4, 6, 9, 11] then 30
  else 31

/-- The years that have dates. -/
def Date.firstYear : Int := -262143

def Date.lastYear : Int := 262142

/-! ## Moments -/

structure Moment where
  date : Date
  hour : Nat
  minute : Nat
  /-- Up to 60, in a leap second. -/
  second : Nat
  deriving DecidableEq, Repr

/-- The moment a number of seconds and nanoseconds after 1970-01-01.  A second
    that ends a minute may be followed by a leap second, which is written as
    more than 10⁹ nanoseconds of it. -/
def Moment.ofUnix? (seconds : Int) (nanos : Nat) : Option Moment :=
  let date := Date.ofDays (seconds / 86400)
  let ofDay := (seconds % 86400).toNat
  let leap := 1000000000 ≤ nanos
  if date.year < Date.firstYear ∨ Date.lastYear < date.year then none
  else if 2000000000 ≤ nanos ∨ (leap ∧ ofDay % 60 ≠ 59) then none
  else some
    { date
      hour := ofDay / 3600
      minute := ofDay / 60 % 60
      second := ofDay % 60 + (if leap then 1 else 0) }

/-! ## Writing -/

/-- A number with zeros before it up to a width. -/
def padded (width n : Nat) : String :=
  let digits := Nat.toDigits 10 n
  String.ofList (List.replicate (width - digits.length) '0' ++ digits)

/-- A year has four digits, and a sign only where it is negative or has more. -/
def yearText (year : Int) : String :=
  if year < 0 then "-" ++ padded 4 year.natAbs
  else if 9999 < year then "+" ++ padded 4 year.natAbs
  else padded 4 year.natAbs

def Moment.render (moment : Moment) : String :=
  yearText moment.date.year ++ "-" ++ padded 2 moment.date.month ++ "-" ++
    padded 2 moment.date.day ++ "T" ++ padded 2 moment.hour ++ ":" ++ padded 2 moment.minute ++
    ":" ++ padded 2 moment.second ++ "Z"

end BillOfMaterials
