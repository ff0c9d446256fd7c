/-!
# Calendar dates

Dates of the years 1 to 9999 in the Gregorian calendar extended to its first year. `Date.toDay`
numbers the days from zero for 1 January of year 1, and `Date.ofDay` finds the date of a day number.
-/

namespace MapEvents

/-- A calendar date. -/
structure Date where
  year : Nat
  month : Nat
  day : Nat
  deriving DecidableEq

namespace Date

/-- Whether the year has a 29 February. -/
def isLeap (year : Nat) : Bool := year % 4 = 0 && (year % 100 ≠ 0 || year % 400 = 0)

/-- Lengths of the twelve months. -/
def monthLengths (leap : Bool) : List Nat :=
  [31, if leap then 29 else 28, 31, 30, 31, 30, 31, 31, 30, 31, 30, 31]

/-- Number of days before the first day of the year. -/
def daysBeforeYear (year : Nat) : Nat :=
  (year - 1) * 365 + (year - 1) / 4 - (year - 1) / 100 + (year - 1) / 400

/-- Number of days before the first day of the month, within its year. -/
def daysBeforeMonth (leap : Bool) (month : Nat) : Nat :=
  ((monthLengths leap).take (month - 1)).foldr (· + ·) 0

/-- Whether month and day name a day of the year, in a year of at most four digits. -/
def isDayOfYear (d : Date) : Bool :=
  d.year ≤ 9999 && 1 ≤ d.month && d.month ≤ 12 && 1 ≤ d.day &&
    d.day ≤ (monthLengths (isLeap d.year)).getD (d.month - 1) 0

/-- Whether year, month and day name a day of the calendar. -/
def isValid (d : Date) : Bool := 1 ≤ d.year && d.isDayOfYear

/-- Number of the day, counted from zero. -/
def toDay (d : Date) : Nat :=
  daysBeforeYear d.year + daysBeforeMonth (isLeap d.year) d.month + (d.day - 1)

/-- Month and day of the month for a day within the year, given the lengths of the months from
`month` on. -/
def splitMonths : (lengths : List Nat) → (month day : Nat) → Nat × Nat
  | [], month, day => (month, day + 1)
  | length :: rest, month, day =>
    if day < length then (month, day + 1) else splitMonths rest (month + 1) (day - length)

/-- Year of a day, and the day within the year. A cycle of 400 years has 146097 days; the last day
of a longer cycle stays in its last part. -/
def splitYears (n : Nat) : Nat × Nat :=
  let r400 := n % 146097
  let n100 := min (r400 / 36524) 3
  let r100 := r400 - n100 * 36524
  let n4 := r100 / 1461
  let r4 := r100 % 1461
  let n1 := min (r4 / 365) 3
  (n / 146097 * 400 + n100 * 100 + n4 * 4 + n1 + 1, r4 - n1 * 365)

/-- Date of a day number. -/
def ofDay (n : Nat) : Date :=
  let (year, day) := splitYears n
  let (month, day) := splitMonths (monthLengths (isLeap year)) 1 day
  { year, month, day }

end Date

end MapEvents
