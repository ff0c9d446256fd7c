import MapEvents.Fault
/-!
# Numbers

Flags and counts are raised and lowered by numbers. A `Number` is an integer or a double. Integers
add up exactly. With a double on either side both are taken as doubles, which an integer may be too
large for, and the sum is rounded to nearest.
-/

namespace MapEvents

/-- An integer or a double. -/
inductive Number where
  | whole (n : Int)
  | real (x : Double)
  deriving DecidableEq

namespace Number

/-- The number that a free-form value stands for; true and false stand for one and zero. -/
def ofValue : Value → Except Fault Number
  | .int n => .ok (.whole n)
  | .bool b => .ok (.whole (if b then 1 else 0))
  | .float x => .ok (.real x)
  | _ => .error .wrongKind

/-- The number as a scalar. -/
def toScalar : Number → Scalar
  | .whole n => .int n
  | .real x => .float x

/-- The double that the number is taken as, if it fits. -/
def toDouble : Number → Except Fault Double
  | .real x => .ok x
  | .whole n =>
    match Double.ofInt? n with
    | some x => .ok x
    | none => .error .numberOutOfRange

/-- Whether the number is greater than zero. -/
def isPositive : Number → Bool
  | .whole n => 0 < n
  | .real x => Double.zero.lt x

/-- Whether the number is zero. -/
def isZero : Number → Bool
  | .whole n => n = 0
  | .real x => x.isZero

/-- The number with the other sign. -/
def neg : Number → Number
  | .whole n => .whole (-n)
  | .real x => .real x.neg

/-- Sum of two numbers. -/
def plus : Number → Number → Except Fault Number
  | .whole m, .whole n => .ok (.whole (m + n))
  | a, b =>
    match a.toDouble, b.toDouble with
    | .ok x, .ok y => .ok (.real (x.add y))
    | .error fault, _ => .error fault
    | _, .error fault => .error fault

/-- Difference of two numbers. -/
def minus (a b : Number) : Except Fault Number := a.plus b.neg

/-- Integers add up exactly. -/
@[simp] theorem plus_whole (m n : Int) : plus (.whole m) (.whole n) = .ok (.whole (m + n)) := rfl

/-- Integers are subtracted exactly. -/
@[simp] theorem minus_whole (m n : Int) : minus (.whole m) (.whole n) = .ok (.whole (m - n)) := by
  simp [minus, neg, Int.sub_eq_add_neg]

end Number

end MapEvents
