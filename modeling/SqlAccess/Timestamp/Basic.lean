/-!
# Points in time

A `Timestamp` is a second since the start of 1970 in UTC, and nanoseconds in it. A second of a
thousand million nanoseconds and more is a leap second, which is shown as second sixty.

Dates follow the Gregorian calendar in both directions. `daysBefore` counts the days from the start
of 1970 to a date, and `dateOf` finds the date of a day; both count years from March, so that the
day that a leap year adds is the last of its year.
-/

namespace SqlAccess

/-- A date of the Gregorian calendar. -/
structure Date where
  year : Int
  month : Nat
  day : Nat
  deriving DecidableEq, Repr

/-- A point in time, in UTC. -/
structure Timestamp where
  seconds : Int
  nanoseconds : Nat
  deriving DecidableEq, Repr

namespace Date

/-- Does the year have a day more than others? -/
def isLeapYear (year : Int) : Bool :=
  year % 4 == 0 && (year % 100 != 0 || year % 400 == 0)

/-- The number of days of a month. -/
def daysInMonth (year : Int) (month : Nat) : Nat :=
  if month = 2 then if isLeapYear year then 29 else 28
  else if month ∈ [4, 6, 9, 11] then 30 else 31

/-- Is there such a date? -/
def isValid (d : Date) : Bool :=
  1 ≤ d.month && d.month ≤ 12 && 1 ≤ d.day && d.day ≤ daysInMonth d.year d.month

/-- The days from the start of March of the year zero to the start of 1970. -/
def daysToEpoch : Int := 719468

/-- The days from the start of 1970 to a date. -/
def daysBefore (d : Date) : Int :=
  let year := if d.month ≤ 2 then d.year - 1 else d.year
  let months : Int := if d.month ≤ 2 then d.month + 9 else d.month - 3
  365 * year + year / 4 - year / 100 + year / 400 + (153 * months + 2) / 5 + d.day - 1 - daysToEpoch

/-- The date that lies the given number of days after the start of 1970. -/
def dateOf (days : Int) : Date :=
  let shifted := days + daysToEpoch
  let cycle := shifted / 146097
  let inCycle := shifted % 146097
  let yearInCycle := (inCycle - inCycle / 1460 + inCycle / 36524 - inCycle / 146096) / 365
  let inYear := inCycle - (365 * yearInCycle + yearInCycle / 4 - yearInCycle / 100)
  let months := (5 * inYear + 2) / 153
  let month := if months < 10 then months + 3 else months - 9
  { year := yearInCycle + 400 * cycle + if month ≤ 2 then 1 else 0
    month := month.toNat
    day := (inYear - (153 * months + 2) / 5 + 1).toNat }

end Date

namespace Timestamp

/-- The nanoseconds of a second. -/
def nanosPerSecond : Nat := 1000000000

/-- The seconds of a day. -/
def secondsPerDay : Int := 86400

/-- The time of the given number of milliseconds since the start of 1970. -/
def ofMilliseconds (n : Int) : Timestamp :=
  ⟨n / 1000, (n % 1000).toNat * 1000000⟩

/-- The decimal digits of a number, filled up with zeros to a width. -/
def padded (width n : Nat) : List Char :=
  let digits := Nat.toDigits 10 n
  List.replicate (width - digits.length) '0' ++ digits

/-- A year of at least four digits, with a sign when it is not between zero and 9999. -/
def yearText (year : Int) : List Char :=
  if 0 ≤ year ∧ year ≤ 9999 then padded 4 year.toNat
  else (if year < 0 then '-' else '+') :: padded 4 year.natAbs

/-- The fraction of a second: none, or as many groups of three digits as it takes. -/
def fractionText (nanoseconds : Nat) : List Char :=
  if nanoseconds = 0 then []
  else if nanoseconds % 1000000 = 0 then '.' :: padded 3 (nanoseconds / 1000000)
  else if nanoseconds % 1000 = 0 then '.' :: padded 6 (nanoseconds / 1000)
  else '.' :: padded 9 nanoseconds

/-- The time as RFC 3339 writes it in UTC. -/
def text (t : Timestamp) : String :=
  let date := Date.dateOf (t.seconds / secondsPerDay)
  let inDay := (t.seconds % secondsPerDay).toNat
  let leap := nanosPerSecond ≤ t.nanoseconds
  let second := inDay % 60 + if leap then 1 else 0
  let nanoseconds := if leap then t.nanoseconds - nanosPerSecond else t.nanoseconds
  String.ofList
    (yearText date.year ++ '-' :: padded 2 date.month ++ '-' :: padded 2 date.day ++
      'T' :: padded 2 (inDay / 3600) ++ ':' :: padded 2 (inDay / 60 % 60) ++
      ':' :: padded 2 second ++ fractionText nanoseconds ++ ['Z'])

end Timestamp

end SqlAccess
