import MapEvents.Calendar.Moment
import MapEvents.Fields
import MapEvents.Value.Basic
/-!
# Spans of time

A span is given as amounts of named units, from microseconds to weeks. Whole amounts add up exactly.
Of an amount with a fraction, the whole part adds up exactly too, and the fraction times the length
of the unit is rounded to a double; its whole microseconds are added, and what is left is summed
apart, as a double. The total goes to the nearest microsecond, a half to the even one.
-/

namespace MapEvents

/-- A unit of time. -/
inductive TimeUnit where
  | microseconds
  | milliseconds
  | seconds
  | minutes
  | hours
  | days
  | weeks
  deriving DecidableEq

namespace TimeUnit

/-- The units in the order in which their amounts are added up. -/
def all : List TimeUnit := [microseconds, milliseconds, seconds, minutes, hours, days, weeks]

/-- Name of the unit. -/
def name : TimeUnit → String
  | microseconds => "microseconds"
  | milliseconds => "milliseconds"
  | seconds => "seconds"
  | minutes => "minutes"
  | hours => "hours"
  | days => "days"
  | weeks => "weeks"

/-- Length of the unit in microseconds. -/
def micros : TimeUnit → Nat
  | microseconds => 1
  | milliseconds => 1000
  | seconds => 1000000
  | minutes => 60000000
  | hours => 3600000000
  | days => 86400000000
  | weeks => 604800000000

end TimeUnit

namespace Span

/-- Whole microseconds, and a sum of fractions of a microsecond beside them. -/
structure Total where
  whole : Int
  rest : Double

/-- Adds an amount that may have a fraction. -/
def Total.addDouble (t : Total) (unit : TimeUnit) (x : Double) : Except Fault Total :=
  match x with
  | .nan => .error .unreadableNumber
  | .infinite _ => .error .numberOutOfRange
  | .finite .. =>
    let whole := t.whole + x.whole?.getD 0 * unit.micros
    if x.fraction.isZero then .ok { t with whole }
    else
      let part := x.fraction.scale unit.micros
      .ok { whole := whole + part.whole?.getD 0, rest := t.rest.add part.fraction }

/-- Adds an amount of a unit; only numbers are amounts. -/
def Total.add (t : Total) (unit : TimeUnit) : Value → Except Fault Total
  | .int n => .ok { t with whole := t.whole + n * unit.micros }
  | .bool b => .ok { t with whole := t.whole + (if b then 1 else 0) * unit.micros }
  | .float x => t.addDouble unit x
  | _ => .error .wrongKind

/-- Adds up the amounts of the given units that are present. -/
def addUnits (amounts : Data) : List TimeUnit → Total → Except Fault Total
  | [], t => .ok t
  | unit :: rest, t =>
    match Fields.find? unit.name amounts with
    | none => addUnits amounts rest t
    | some v =>
      match t.add unit v with
      | .ok t => addUnits amounts rest t
      | .error fault => .error fault

/-- The total rounded to whole microseconds, a half going to the even neighbour. -/
def Total.rounded (t : Total) : Int :=
  let units := t.whole * Double.unitsPerOne + t.rest.units?.getD 0
  let magnitude := Double.roundHalfEven units.natAbs Double.unitsPerOne
  if units < 0 then -magnitude else magnitude

/-- Length in microseconds of a span given by amounts of units; every name must be a unit. -/
def micros (amounts : Data) : Except Fault Int :=
  if amounts.all fun a => TimeUnit.all.any (·.name = a.1) then
    match addUnits amounts TimeUnit.all ⟨0, .zero⟩ with
    | .ok t => .ok t.rounded
    | .error fault => .error fault
  else
    .error .wrongKind

end Span

/-- The clock moved by a span given by amounts of units. -/
def Clock.advance (c : Clock) (amounts : Data) : Except Fault Clock :=
  match Span.micros amounts with
  | .ok n => c.move n
  | .error fault => .error fault

end MapEvents
