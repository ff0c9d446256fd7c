import MapEvents.Calendar.Span
/-!
# Zones with rules

The zone of a clock need not keep one offset from UTC: where daylight saving time comes and goes,
the offset depends on the reading. A `Zone` is the rule that gives it, and a `ZonedClock` is a clock
in such a zone. A clock is moved along its wall-clock readings: a span is added to what the clock
shows, and the zone then tells which instant the new reading is. A `Clock` of a session is the
special case in which the zone has one offset for all readings.
-/

namespace MapEvents

/-- How far a zone is ahead of UTC, in microseconds, at each reading of its clocks. Readings that
come twice, when the clocks go back, are told apart by `again`. -/
structure Zone where
  ahead : Reading → (again : Bool) → Int

/-- The zone that is always the same number of minutes ahead of UTC. -/
def Zone.fixed (minutes : Int) : Zone := ⟨fun _ _ => offsetMicros minutes⟩

/-- The zone has one offset at all readings. -/
def Zone.Steady (z : Zone) : Prop := ∃ ahead, ∀ r again, z.ahead r again = ahead

/-- A wall-clock reading, and its zone if there is one. -/
structure ZonedMoment where
  reading : Reading
  again : Bool
  zone : Option Zone

/-- The moment in the zone of its offset. -/
def Moment.zoned (m : Moment) : ZonedMoment := ⟨m.reading, false, m.offset.map .fixed⟩

/-- A clock in a zone. -/
structure ZonedClock where
  reading : Reading
  again : Bool
  zone : Zone

namespace ZonedClock

/-- What the clock shows. -/
def now (c : ZonedClock) : ZonedMoment := ⟨c.reading, c.again, some c.zone⟩

/-- How far the clock is ahead of UTC, in microseconds. -/
def offset (c : ZonedClock) : Int := c.zone.ahead c.reading c.again

/-- The instant in UTC as microseconds from the start of the calendar. -/
def instant (c : ZonedClock) : Int := c.reading.val - c.offset

/-- A clock that shows this moment; the moment needs a zone. -/
def ofMoment (m : ZonedMoment) : Except Fault ZonedClock :=
  match m.zone with
  | some zone => .ok ⟨m.reading, m.again, zone⟩
  | none => .error .zonelessClock

/-- The clock moved by a number of microseconds. It comes to the first of two equal readings, also
where it stood at the second and is moved by nothing. -/
def move (c : ZonedClock) (micros : Int) : Except Fault ZonedClock :=
  match Reading.ofMicros (c.reading.val + micros) with
  | .ok reading => .ok { c with reading, again := false }
  | .error fault => .error fault

/-- The clock moved by a span given by amounts of units. -/
def advance (c : ZonedClock) (amounts : Data) : Except Fault ZonedClock :=
  match Span.micros amounts with
  | .ok n => c.move n
  | .error fault => .error fault

/-- What a clock is called for. -/
inductive Call where
  | set (m : ZonedMoment)
  | advance (amounts : Data)

/-- The clock after a call that it does not refuse. -/
def answer (c : ZonedClock) : Call → Except Fault ZonedClock
  | .set m => ofMoment m
  | .advance amounts => c.advance amounts

end ZonedClock

/-- The clock as one in the zone of its offset. -/
def Clock.zoned (c : Clock) : ZonedClock := ⟨c.reading, false, .fixed c.offset⟩

end MapEvents
