import MapEvents.Calendar.Epoch
import MapEvents.Calendar.Stamp
import MapEvents.Schema.Shape
import MapEvents.Text.WholeNumeral
/-!
# Reading leaves

Each leaf accepts its own kind of value and a few others that stand for it: integers may be given as
true or false, as doubles without a fraction or as text, moments as seconds since 1970, and so on.
What a leaf refuses is reported by one kind of issue; only a flag names each of its four kinds.
-/

namespace MapEvents

/-- The result of a check: data, or everything that is wrong with it. -/
abbrev Checked (α : Type) := Except (List Issue) α

namespace Leaf

/-- What a leaf makes of a value: its own data, or why there is none. -/
abbrev Verdict (α : Type) := Except IssueKind α

/-- A single issue at this place, which holds the value. -/
def refuse {α : Type} (kind : IssueKind) (v : Value) : Checked α := .error [⟨kind, [], v⟩]

/-- The check of a value that a leaf reads. -/
def checked {α : Type} (v : Value) : Verdict α → Checked α
  | .ok a => .ok a
  | .error kind => refuse kind v

/-- Reads an integer from text. -/
def wholeOfText (s : String) : Verdict Int :=
  match WholeNumeral.read s with
  | .ok n => .ok n
  | .error .unreadable => .error .unreadableWhole
  | .error .oversized => .error .oversizedWhole

/-- Doubles count as integers only below this size. -/
def wordLimit : Nat := Nat.pow 2 63

/-- The integer that a double without fraction is. -/
def wholeOfDouble (x : Double) : Verdict Int :=
  if x.isFinite then
    match x.integer? with
    | some n => if n.natAbs < wordLimit then .ok n else .error .oversizedWhole
    | none => .error .fractionalWhole
  else
    .error .infiniteWhole

/-- Reads an integer. -/
def readWhole : Value → Verdict Int
  | .int n => .ok n
  | .bool b => .ok (if b then 1 else 0)
  | .float x => wholeOfDouble x
  | .str s => wholeOfText s
  | _ => .error .notWhole

/-- Reads a count: an integer that is not negative. -/
def readCount (v : Value) : Verdict Number :=
  match readWhole v with
  | .ok n => if n < 0 then .error .belowMinimum else .ok (.whole n)
  | .error kind => .error kind

/-- Reads a double from text: with white space around it, or else with underscores that are neither
at an end nor beside each other. -/
def realOfText (s : String) : Verdict Double :=
  match Numeral.read? (Blank.trim Blank.isWhite s.toList) with
  | some x => .ok x
  | none =>
    match (Digits.dropSeparators (fun _ => true) s.toList).bind Numeral.read? with
    | some x => .ok x
    | none => .error .unreadableReal

/-- Reads a double. -/
def readReal : Value → Verdict Double
  | .int n =>
    match Double.ofInt? n with
    | some x => .ok x
    | none => .error .notReal
  | .bool b => .ok (Double.ofInt (if b then 1 else 0))
  | .float x => .ok x
  | .str s => realOfText s
  | _ => .error .notReal

/-- Words for off and on. -/
def switchWords : List (String × Bool) :=
  [("0", false), ("off", false), ("f", false), ("false", false), ("n", false), ("no", false),
    ("1", true), ("on", true), ("t", true), ("true", true), ("y", true), ("yes", true)]

/-- Zero and one stand for false and true. -/
def switchOfWhole (n : Int) : Verdict Bool :=
  if n = 0 then .ok false else if n = 1 then .ok true else .error .unreadableSwitch

/-- Reads true or false. Numbers that are no integers of 64 bits cannot stand for either. -/
def readSwitch : Value → Verdict Bool
  | .bool b => .ok b
  | .int n => if -wordLimit ≤ n ∧ n < wordLimit then switchOfWhole n else .error .notSwitch
  | .float x =>
    match wholeOfDouble x with
    | .ok n => switchOfWhole n
    | .error _ => .error .notSwitch
  | .str s =>
    match switchWords.lookup (Numeral.lower s.toList) with
    | some b => .ok b
    | none => .error .unreadableSwitch
  | _ => .error .notSwitch

/-- Checks a flag's value, which keeps its kind. -/
def checkFlag : Value → Checked Scalar
  | .bool b => .ok (.bool b)
  | .int n => .ok (.int n)
  | .float x => .ok (.float x)
  | .str s => .ok (.str s)
  | v => .error
    [⟨.notSwitch, [.key "bool"], v⟩, ⟨.notWhole, [.key "int"], v⟩, ⟨.notReal, [.key "float"], v⟩,
      ⟨.notText, [.key "str"], v⟩]

/-- The moment in UTC at a number of microseconds since 1970. -/
def momentAt (micros : Int) : Verdict Moment :=
  match Epoch.moment? micros with
  | some m => .ok m
  | none => .error (if Epoch.isInYearZero micros then .unreadableMoment else .unreadableDate)

/-- Reads a moment that is given as a number. -/
def momentOfMicros (micros : Option Int) : Verdict Moment :=
  match micros.bind Epoch.moment? with
  | some m => .ok m
  | none => .error .unreadableMoment

/-- Reads a moment from text. -/
def momentOfText (s : String) : Verdict Moment :=
  match Stamp.read? s with
  | some stamp =>
    match stamp.moment? with
    | some m => .ok m
    | none => .error .unreadableMoment
  | none =>
    match Epoch.microsOfText? s with
    | some micros => momentAt micros
    | none => .error .unreadableDate

/-- Reads a moment. -/
def readMoment : Value → Verdict Moment
  | .str s => momentOfText s
  | .int n =>
    if (Double.ofInt? n).isSome then momentOfMicros (some (Epoch.microsOfWhole n))
    else .error .notMoment
  | .float x => momentOfMicros (Epoch.microsOfDouble? x)
  | _ => .error .notMoment

/-- Reads a text. -/
def readText : Value → Verdict String
  | .str s => .ok s
  | _ => .error .notText

/-- Position of a name in a list. -/
def position? (name : String) : (names : List String) → Option (Fin names.length)
  | [] => none
  | n :: rest => if n = name then some 0 else (position? name rest).map Fin.succ

/-- Reads one of the given names. -/
def readChoice (names : List String) : Value → Verdict (Fin names.length)
  | .str s =>
    match position? s names with
    | some i => .ok i
    | none => .error .notChoice
  | _ => .error .notChoice

/-- Checks a leaf. -/
def check : (l : Leaf) → Value → Checked l.Of
  | .text, v => checked v (readText v)
  | .whole, v => checked v (readWhole v)
  | .count, v => checked v (readCount v)
  | .real, v => checked v (readReal v)
  | .switch, v => checked v (readSwitch v)
  | .flag, v => checkFlag v
  | .moment, v => checked v (readMoment v)
  | .choice names, v => checked v (readChoice names v)
  | .free, v => .ok v

/-- Writes a leaf. -/
def dump (style : UtcStyle) : (l : Leaf) → l.Of → Value
  | .text, s => .str s
  | .whole, n => .int n
  | .count, n => n.toScalar.toValue
  | .real, x => .float x
  | .switch, b => .bool b
  | .flag, s => s.toValue
  | .moment, m => .str (m.text style)
  | .choice names, i => .str names[i]
  | .free, v => v

end Leaf

end MapEvents
