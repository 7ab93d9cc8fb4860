/-! The Gregorian calendar without beginning or end. Days are counted from 1 January 1970. A year is
    taken to begin in March, so that the leap day is its last one; 400 years always have the same number
    of days. -/

namespace DownloadReport.Calendar

/-- A day of the calendar; the year before year 1 is year 0. -/
structure Date where
  year : Int
  month : Nat
  day : Nat
  deriving DecidableEq, Repr

/-- How many days 400 years have. -/
def cycleDays : Int := 146097

/-- From the beginning of March of year 0 to 1 January 1970. -/
def epochDay : Int := 719468

/-- The year of a cycle in which a day lies; years begin in March. -/
def yearOfCycle (day : Nat) : Nat := (day - day / 1460 + day / 36524 - day / 146096) / 365

/-- The first day of a year of a cycle. -/
def yearStart (year : Nat) : Nat := 365 * year + year / 4 - year / 100

/-- The month of a year in which a day lies; March is month 0. -/
def monthOfYear (day : Nat) : Nat := (5 * day + 2) / 153

/-- The first day of a month of a year; March is month 0. -/
def monthStart (month : Nat) : Nat := (153 * month + 2) / 5

/-- The date so many days after 1 January 1970. -/
def Date.ofDays (days : Int) : Date :=
  let z := days + epochDay
  let cycle := z / cycleDays
  let dayOfCycle := (z % cycleDays).toNat
  let year := yearOfCycle dayOfCycle
  let dayOfYear := dayOfCycle - yearStart year
  let month := monthOfYear dayOfYear
  { year := 400 * cycle + year + (if month < 10 then 0 else 1)
    month := if month < 10 then month + 3 else month - 9
    day := dayOfYear - monthStart month + 1 }

/-- A number with at least `width` digits. -/
def padded (width n : Nat) : List Char :=
  let digits := Nat.toDigits 10 n
  List.replicate (width - digits.length) '0' ++ digits

/-- A year: four digits, and outside the years 0 to 9999 a sign before at least as many. -/
def yearText (year : Int) : List Char :=
  if 0 ≤ year ∧ year ≤ 9999 then padded 4 year.toNat
  else (if year < 0 then '-' else '+') :: padded 4 year.natAbs

/-- Seconds of a day. -/
def secondsPerDay : Int := 86400

/-- Nanoseconds as a fraction of a second, in groups of three digits and no more groups than it takes;
    nothing if there are none. -/
def fraction (nanos : Nat) : List Char :=
  if nanos = 0 then []
  else if nanos % 1000000 = 0 then '.' :: padded 3 (nanos / 1000000)
  else if nanos % 1000 = 0 then '.' :: padded 6 (nanos / 1000)
  else '.' :: padded 9 nanos

/-- Date and time of day so many seconds and nanoseconds after the beginning of 1970, at zero offset.
    Nanoseconds from a thousand million on stand within a leap second, which counts as one more second
    of its minute. -/
def timestamp (seconds : Int) (nanos : Nat) : String :=
  let date := Date.ofDays (seconds / secondsPerDay)
  let time := (seconds % secondsPerDay).toNat
  String.ofList <|
    yearText date.year ++ ['-'] ++ padded 2 date.month ++ ['-'] ++ padded 2 date.day ++ ['T'] ++
      padded 2 (time / 3600) ++ [':'] ++ padded 2 (time / 60 % 60) ++ [':'] ++
      padded 2 (time % 60 + nanos / 1000000000) ++ fraction (nanos % 1000000000) ++
      ['+', '0', '0', ':', '0', '0']

end DownloadReport.Calendar
