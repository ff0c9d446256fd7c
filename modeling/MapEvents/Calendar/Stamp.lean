import MapEvents.Calendar.Moment
import MapEvents.Text.Digits
/-!
# Written moments

A moment is written as date, `T`, time and offset, with six digits for the microseconds unless they
are zero; UTC is written `+00:00` or, in answers of the service, `Z`, and a moment without offset
has nothing at its end.

`Stamp.read?` accepts a date alone, which means its midnight without offset, or a date, one of `T`,
`t`, space and underscore, hours and minutes, and optionally seconds, a fraction of a second of
which six digits count, and an offset. A point or a comma stands before the fraction; an offset has
a colon between hours and minutes or nothing, and its minus sign may be the hyphen or the true one.
The year may be 0000, which is no year of the calendar: such a stamp is read and names no moment.
-/

namespace MapEvents

/-- How an offset of zero is written. -/
inductive UtcStyle where
  | numeric
  | letter
  deriving DecidableEq

/-- What a written moment says. -/
structure Stamp where
  date : Date
  /-- Microseconds since midnight. -/
  micros : Nat
  offset : Option Int

namespace Moment

/-- A number in at least two digits. -/
def two (n : Nat) : List Char := Digits.padded 2 n

/-- A date as year, month and day. -/
def dateText (d : Date) : List Char :=
  Digits.padded 4 d.year ++ '-' :: two d.month ++ '-' :: two d.day

/-- A time of day with microseconds unless they are zero. -/
def timeText (micros : Nat) : List Char :=
  let seconds := micros / 1000000
  let fraction := micros % 1000000
  two (seconds / 3600) ++ ':' :: two (seconds / 60 % 60) ++ ':' :: two (seconds % 60) ++
    if fraction = 0 then [] else '.' :: Digits.padded 6 fraction

/-- An offset in hours and minutes. -/
def offsetText (style : UtcStyle) (minutes : Int) : List Char :=
  if minutes = 0 ∧ style = .letter then ['Z']
  else
    (if minutes < 0 then '-' else '+') :: two (minutes.natAbs / 60) ++
      ':' :: two (minutes.natAbs % 60)

/-- A moment as text. -/
def text (style : UtcStyle) (m : Moment) : String :=
  let zone := match m.offset with
    | some minutes => offsetText style minutes
    | none => []
  String.ofList <|
    dateText m.reading.date ++ 'T' :: timeText (m.reading.val % dayLength) ++ zone

end Moment

namespace Stamp

/-- Reads exactly this many digits, and gives what follows them. -/
def readDigits? (count : Nat) (cs : List Char) : Option (Nat × List Char) :=
  let ds := cs.take count
  if ds.length = count ∧ ds.all Digits.isDigit then some (Digits.value ds, cs.drop count) else none

/-- Reads one given character. -/
def readChar? (c : Char) : List Char → Option (List Char)
  | d :: rest => if d = c then some rest else none
  | [] => none

/-- Reads a date. -/
def readDate? (cs : List Char) : Option (Date × List Char) := do
  let (year, cs) ← readDigits? 4 cs
  let cs ← readChar? '-' cs
  let (month, cs) ← readDigits? 2 cs
  let cs ← readChar? '-' cs
  let (day, cs) ← readDigits? 2 cs
  let date : Date := { year, month, day }
  if date.isDayOfYear then some (date, cs) else none

/-- Microseconds of the digits of a fraction; from the seventh on they do not count. -/
def fractionMicros (ds : List Char) : Nat :=
  let ds := ds.take 6
  Digits.value ds * Nat.pow 10 (6 - ds.length)

/-- Reads an optional fraction of a second, in microseconds. -/
def readFraction? : List Char → Option (Nat × List Char)
  | [] => some (0, [])
  | c :: rest =>
    if c = '.' ∨ c = ',' then
      let (ds, rest) := Digits.span rest
      if ds.isEmpty then none else some (fractionMicros ds, rest)
    else
      some (0, c :: rest)

/-- Reads optional seconds, in microseconds. -/
def readSeconds? : List Char → Option (Nat × List Char)
  | ':' :: rest => do
    let (seconds, rest) ← readDigits? 2 rest
    let (fraction, rest) ← readFraction? rest
    if seconds < 60 then some (seconds * 1000000 + fraction, rest) else none
  | cs => some (0, cs)

/-- Reads a time of day, in microseconds. -/
def readTime? (cs : List Char) : Option (Nat × List Char) := do
  let (hours, cs) ← readDigits? 2 cs
  let cs ← readChar? ':' cs
  let (minutes, cs) ← readDigits? 2 cs
  let (micros, cs) ← readSeconds? cs
  if hours < 24 ∧ minutes < 60 then some ((hours * 60 + minutes) * 60000000 + micros, cs) else none

/-- Reads hours and minutes of an offset that end the text. -/
def readOffset? (negative : Bool) (cs : List Char) : Option Int := do
  let (hours, cs) ← readDigits? 2 cs
  let (minutes, cs) ← readDigits? 2 ((readChar? ':' cs).getD cs)
  if hours < 24 ∧ minutes < 60 ∧ cs = [] then
    some (Digits.signed negative (hours * 60 + minutes : Nat))
  else
    none

/-- Reads an optional offset that ends the text. -/
def readZone? : List Char → Option (Option Int)
  | [] => some none
  | ['Z'] => some (some 0)
  | ['z'] => some (some 0)
  | '+' :: rest => (readOffset? false rest).map some
  | '-' :: rest => (readOffset? true rest).map some
  | '−' :: rest => (readOffset? true rest).map some
  | _ => none

/-- Whether the character may stand between date and time. -/
def isDateTimeSeparator (c : Char) : Bool := c = 'T' || c = 't' || c = ' ' || c = '_'

/-- Reads a written moment. -/
def read? (s : String) : Option Stamp := do
  let (date, rest) ← readDate? s.toList
  match rest with
  | [] => some ⟨date, 0, none⟩
  | c :: rest =>
    if isDateTimeSeparator c then
      let (micros, rest) ← readTime? rest
      let offset ← readZone? rest
      some ⟨date, micros, offset⟩
    else
      none

/-- The moment that a stamp names; none in the year 0000. -/
def moment? (s : Stamp) : Option Moment :=
  if s.date.isValid then
    (Reading.ofMicros? (s.date.toDay * dayLength + s.micros : Nat)).map (⟨·, s.offset⟩)
  else
    none

end Stamp

/-- The moment that a text names. -/
def Moment.read? (s : String) : Option Moment := (Stamp.read? s).bind Stamp.moment?

end MapEvents
