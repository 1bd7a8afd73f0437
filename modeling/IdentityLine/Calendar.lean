import IdentityLine.Text.Decimal

/-!
# The calendar

Dates are those of the Gregorian calendar, carried on into the past and the
future without end. A day is found by going down the cycles of the calendar:
four hundred years, a century, four years, a year, each of a known length except
that the last of its kind may be a day longer; the day of the year is then
walked through the months. `dayNumber` goes the other way by the closed formula,
and is what a date means.
-/

namespace IdentityLine.Calendar

/-- A date of the Gregorian calendar. The year before 1 is the year 0. -/
structure Date where
  year : Int
  month : Nat
  day : Nat
deriving DecidableEq, Repr

/-- Whether a year has a 29th of February. -/
def isLeap (year : Int) : Bool :=
  year % 4 = 0 && (year % 100 ≠ 0 || year % 400 = 0)

/-- The lengths of the months of a year. -/
def monthLengths (leap : Bool) : List Nat :=
  [31, if leap then 29 else 28, 31, 30, 31, 30, 31, 31, 30, 31, 30, 31]

/-- Days from the first day of 1970 to the first day of a year. -/
def yearStart (year : Int) : Int :=
  let past := year - 1
  past * 365 + past / 4 - past / 100 + past / 400 - 719162

/-- The number of days in the first months of a year. -/
def daysOf : Nat → List Nat → Nat
  | months + 1, length :: rest => length + daysOf months rest
  | _, _ => 0

/-- Days from the first day of 1970 to a date. -/
def dayNumber (d : Date) : Int :=
  yearStart d.year + (daysOf (d.month - 1) (monthLengths (isLeap d.year)) + d.day - 1 : Nat)

/-- Whether a date exists. -/
def Date.Exists (d : Date) : Prop :=
  1 ≤ d.month ∧ 1 ≤ d.day ∧
    ∃ length, (monthLengths (isLeap d.year))[d.month - 1]? = some length ∧ d.day ≤ length

/-- The month and the day of it that a day of the year falls on; both count from one. -/
def monthAndDay (month : Nat) (dayOfYear : Nat) : List Nat → Nat × Nat
  | [] => (month, dayOfYear + 1)
  | length :: rest =>
      if dayOfYear < length then (month, dayOfYear + 1)
      else monthAndDay (month + 1) (dayOfYear - length) rest

/-- The year that a day falls in, and the day of that year from zero. -/
def yearAndDay (dayNumber : Int) : Int × Nat :=
  let fromYearOne := dayNumber + 719162
  let cycle := fromYearOne / 146097
  let inCycle := (fromYearOne % 146097).toNat
  let century := min (inCycle / 36524) 3
  let inCentury := inCycle - century * 36524
  let olympiad := inCentury / 1461
  let inOlympiad := inCentury - olympiad * 1461
  let year := min (inOlympiad / 365) 3
  (cycle * 400 + century * 100 + olympiad * 4 + year + 1, inOlympiad - year * 365)

/-- The date of a day. -/
def dateOf (dayNumber : Int) : Date :=
  let (year, dayOfYear) := yearAndDay dayNumber
  let (month, day) := monthAndDay 1 dayOfYear (monthLengths (isLeap year))
  { year, month, day }

/-- The name of the day of the week that a day is; the first day of 1970 was a Thursday. -/
def weekdayName (dayNumber : Int) : String :=
  match (dayNumber % 7).toNat with
  | 0 => "Thu"
  | 1 => "Fri"
  | 2 => "Sat"
  | 3 => "Sun"
  | 4 => "Mon"
  | 5 => "Tue"
  | _ => "Wed"

/-- The name of a month. -/
def monthName (month : Nat) : String :=
  match month with
  | 1 => "Jan"
  | 2 => "Feb"
  | 3 => "Mar"
  | 4 => "Apr"
  | 5 => "May"
  | 6 => "Jun"
  | 7 => "Jul"
  | 8 => "Aug"
  | 9 => "Sep"
  | 10 => "Oct"
  | 11 => "Nov"
  | _ => "Dec"

/-- A year in at least four digits, with a sign below the year 0 and above the year 9999. -/
def yearText (year : Int) : String :=
  let digits := Decimal.padded 4 year.natAbs
  String.ofList (if year < 0 then '-' :: digits else if 9999 < year then '+' :: digits else digits)

/-- A number in two digits. -/
def twoDigits (n : Nat) : String :=
  String.ofList (Decimal.padded 2 n)

/-- The time of day by the number of seconds that have passed of it. -/
def timeOfDay (seconds : Nat) : String :=
  twoDigits (seconds / 3600) ++ ":" ++ twoDigits (seconds / 60 % 60) ++ ":"
    ++ twoDigits (seconds % 60)

/-- The date and time of day of a local time, which is given in seconds since the start of 1970. The
zone's own text comes last. -/
def timestamp (localSeconds : Int) (zone : String) : String :=
  let dayNumber := localSeconds / 86400
  let date := dateOf dayNumber
  weekdayName dayNumber ++ " " ++ monthName date.month ++ " "
    ++ String.ofList (Decimal.digits date.day) ++ " "
    ++ timeOfDay (localSeconds % 86400).toNat ++ " " ++ yearText date.year ++ " " ++ zone

/-- A time in UTC, given in milliseconds since the start of 1970, with the larger units first. -/
def moment (millis : Int) : String :=
  let seconds := millis / 1000
  let date := dateOf (seconds / 86400)
  yearText date.year ++ "-" ++ twoDigits date.month ++ "-" ++ twoDigits date.day ++ "T"
    ++ timeOfDay (seconds % 86400).toNat ++ "."
    ++ String.ofList (Decimal.padded 3 (millis % 1000).toNat) ++ "Z"

end IdentityLine.Calendar
