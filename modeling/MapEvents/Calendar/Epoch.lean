import MapEvents.Calendar.Moment
import MapEvents.Double.Numeral
/-!
# Moments counted from 1970

A number may stand for a moment in UTC: it counts seconds since the start of 1970 or, past a limit,
milliseconds. Counts become whole microseconds here. A count may lead out of the calendar; of the
years before it only the year 0000 is told apart, which has dates but no moments.
-/

namespace MapEvents.Epoch

/-- Microseconds from the start of the calendar to 1970. -/
def start : Int := 62135596800000000

/-- Larger numbers count milliseconds, not seconds. -/
def secondsLimit : Nat := 20000000000

/-- Microseconds since 1970 that an integer counts. -/
def microsOfWhole (n : Int) : Int :=
  if n.natAbs ≤ secondsLimit then n * 1000000 else n * 1000

/-- A fraction of a unit in microseconds, a half going up; `length` is the length of the unit. The
product is rounded to a double before. -/
def microsOfFraction (fraction : Double) (length : Nat) : Int :=
  let one : Int := Double.unitsPerOne
  (((fraction.scale length).units?.getD 0) * 2 + one) / (2 * one)

/-- Microseconds since 1970 that a double counts. Its fraction is what it exceeds the next lower
integer by, rounded to a double. -/
def microsOfDouble? (x : Double) : Option Int :=
  x.units?.map fun units =>
    let one : Int := Double.unitsPerOne
    let length := if units.natAbs ≤ secondsLimit * Double.unitsPerOne then 1000000 else 1000
    units / one * length + microsOfFraction (Double.ofUnits false (units % one)) length

/-- Least number that is too large for the digits in front of the point of a number in text. -/
def digitsLimit : Nat := Nat.pow 2 63

/-- Microseconds since 1970 that a number in text counts: digits with an optional sign, or a decimal
numeral that has a point. Only behind a point there may be an exponent. -/
def microsOfText? (s : String) : Option Int :=
  let (negative, rest) := Digits.splitSign s.toList
  let (whole, rest) := Digits.span rest
  let n := Digits.value whole
  if digitsLimit ≤ n then none
  else if rest.head? = some '.' then (Numeral.read? s.toList).bind microsOfDouble?
  else if whole.isEmpty || !rest.isEmpty then none
  else some (microsOfWhole (Digits.signed negative n))

/-- The moment in UTC at a number of microseconds since 1970, if that lies in the calendar. -/
def moment? (micros : Int) : Option Moment :=
  (Reading.ofMicros? (start + micros)).map (⟨·, some 0⟩)

/-- Whether a number of microseconds since 1970 leads into the year 0000, which has 366 days. -/
def isInYearZero (micros : Int) : Bool :=
  -366 * (dayLength : Int) ≤ start + micros && start + micros < 0

end MapEvents.Epoch
