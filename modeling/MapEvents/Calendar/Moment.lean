import MapEvents.Calendar.Date
import MapEvents.Fault
/-!
# Moments and the session clock

A `Moment` is a wall-clock reading with microseconds, together with the zone offset in which it was
taken, if that is known. A reading without offset counts as one of the host's own zone, and the host
is taken to keep its clocks in UTC. A `Clock` always has an offset, and keeps it; a clock in a zone
whose offset changes with the seasons is a `ZonedClock`.

Moving a reading by a span of time, or to another offset, fails when the result, or the moment in
UTC on the way, leaves the years 1 to 9999. A reading without offset on the very first day has no
day before it in which a zone could be looked up, so it cannot be moved at all.
-/

namespace MapEvents

/-- Microseconds of one day. -/
def dayLength : Nat := 86400000000

/-- Days of the years 1 to 9999. -/
def calendarDays : Nat := 3652059

/-- Microseconds of the years 1 to 9999. -/
def calendarLength : Nat := calendarDays * dayLength

/-- Microseconds from the start of the calendar, shown by a wall clock. -/
abbrev Reading := Fin calendarLength

/-- A wall-clock reading and the offset of its zone from UTC, in minutes. -/
structure Moment where
  reading : Reading
  offset : Option Int
  deriving DecidableEq

/-- A wall clock in a zone that keeps one offset from UTC, in minutes. -/
structure Clock where
  reading : Reading
  offset : Int
  deriving DecidableEq

namespace Reading

/-- The reading at a number of microseconds, if that lies in the calendar. -/
def ofMicros? (n : Int) : Option Reading :=
  if h : 0 ≤ n ∧ n < calendarLength then some ⟨n.toNat, by omega⟩ else none

/-- The reading at a number of microseconds. -/
def ofMicros (n : Int) : Except Fault Reading :=
  match ofMicros? n with
  | some r => .ok r
  | none => .error .timeOutOfRange

/-- Calendar date of the reading. -/
def date (r : Reading) : Date := Date.ofDay (r.val / dayLength)

end Reading

/-- Microseconds of an offset in minutes. -/
def offsetMicros (minutes : Int) : Int := minutes * 60000000

namespace Moment

/-- The instant in UTC as microseconds from the start of the calendar. A reading without offset is
one of the host's own zone, which is taken to be UTC. -/
def instant (m : Moment) : Int := m.reading.val - offsetMicros (m.offset.getD 0)

/-- Wall-clock reading of the same instant at another offset, for a host whose own zone is UTC. -/
def readingAt (m : Moment) (offset : Int) : Except Fault Reading :=
  if m.offset = none ∧ m.reading.val < dayLength then .error .unplaceableTime
  else do
    let utc ← Reading.ofMicros m.instant
    Reading.ofMicros (utc.val + offsetMicros offset)

end Moment

namespace Clock

/-- Noon of 1 January 2025, UTC. -/
def start : Clock := ⟨⟨63871329600000000, by decide⟩, 0⟩

/-- What the clock shows. -/
def now (c : Clock) : Moment := ⟨c.reading, some c.offset⟩

/-- Calendar date that the clock shows. -/
def today (c : Clock) : Date := c.reading.date

/-- A clock that shows this moment; the moment needs an offset. -/
def ofMoment (m : Moment) : Except Fault Clock :=
  match m.offset with
  | some offset => .ok ⟨m.reading, offset⟩
  | none => .error .zonelessClock

/-- The clock moved by a number of microseconds. -/
def move (c : Clock) (micros : Int) : Except Fault Clock :=
  match Reading.ofMicros (c.reading.val + micros) with
  | .ok reading => .ok { c with reading }
  | .error fault => .error fault

end Clock

end MapEvents
