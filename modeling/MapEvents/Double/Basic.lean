/-!
# Binary64 numbers as data

A double is one of: not-a-number, an infinity, or a sign with an exponent field and a fraction
field. Every finite double is a whole multiple of the smallest positive one, `2 ^ (-1074)`, so its
value is an integer count of that *unit*, and comparison, addition and rounding are exact integer
arithmetic. There is one not-a-number: payloads are not kept.

Rounding is to nearest, ties to the even neighbour, and a magnitude past the largest finite double
becomes an infinity.
-/

namespace MapEvents

/-- A binary64 number by its fields; the exponent field of a finite double is at most 2046. -/
inductive Double where
  | nan
  | infinite (negative : Bool)
  | finite (negative : Bool) (exponent : Fin 2047) (fraction : Fin 4503599627370496)
  deriving DecidableEq

namespace Double

/-- Number of fractions that share one exponent field. -/
def fractions : Nat := 4503599627370496

/-- First magnitude code that is no finite double. -/
def codeLimit : Nat := 2047 * fractions

/-- How many units make one. -/
def unitsPerOne : Nat := Nat.pow 2 1074

/-- The finite double with this sign and magnitude code, an infinity when the code is too large.
Codes order magnitudes: the exponent field is the high part, the fraction the low part. -/
def ofCode (negative : Bool) (code : Nat) : Double :=
  if h : code < codeLimit then
    .finite negative ⟨code / fractions, by unfold codeLimit fractions at h; unfold fractions; omega⟩
      ⟨code % fractions, Nat.mod_lt _ (by decide)⟩
  else
    .infinite negative

/-- Magnitude in units of the finite double with this code. -/
def codeUnits (code : Nat) : Nat :=
  if code < fractions then code
  else (fractions + code % fractions) * Nat.pow 2 (code / fractions - 1)

/-- The quotient rounded to the nearest natural number, a half going to the even neighbour. -/
def roundHalfEven (num den : Nat) : Nat :=
  let q := num / den
  let r := num % den
  if 2 * r < den then q
  else if den < 2 * r then q + 1
  else if q % 2 = 0 then q
  else q + 1

/-- Code of the double nearest to the magnitude `num / den` units. -/
def nearestCode (num den : Nat) : Nat :=
  let shift := (num / den).log2 - 52
  shift * fractions + roundHalfEven num (den * Nat.pow 2 shift)

/-- The double nearest to `num / den`, with the given sign. -/
def ofRatio (negative : Bool) (num den : Nat) : Double :=
  ofCode negative (nearestCode (num * unitsPerOne) den)

/-- The double nearest to a whole number of units; a zero takes the given sign. -/
def ofUnits (zeroNegative : Bool) (units : Int) : Double :=
  if units = 0 then ofCode zeroNegative 0
  else ofCode (decide (units < 0)) (nearestCode units.natAbs 1)

/-- Positive zero. -/
def zero : Double := ofCode false 0

/-- One half. -/
def half : Double := ofRatio false 1 2

instance : Inhabited Double := ⟨zero⟩

/-- The double nearest to an integer; past the largest finite double it is an infinity. -/
def ofInt (n : Int) : Double := ofRatio (decide (n < 0)) n.natAbs 1

/-- The double nearest to an integer, if that is finite. -/
def ofInt? (n : Int) : Option Double :=
  match ofInt n with
  | .infinite _ => none
  | x => some x

/-- Magnitude code of a finite double. -/
def fieldsCode (exponent : Fin 2047) (fraction : Fin 4503599627370496) : Nat :=
  exponent.val * fractions + fraction.val

/-- Exact value of a finite double, in units. -/
def units? : Double → Option Int
  | .finite negative e f =>
    let m : Int := codeUnits (fieldsCode e f)
    some (if negative then -m else m)
  | _ => none

/-- Sign bit, with not-a-number counted as positive. -/
def isNegative : Double → Bool
  | .nan => false
  | .infinite negative => negative
  | .finite negative _ _ => negative

/-- The double with the other sign. -/
def neg : Double → Double
  | .nan => .nan
  | .infinite negative => .infinite !negative
  | .finite negative e f => .finite (!negative) e f

/-- Whether the double is positive or negative zero. -/
def isZero (x : Double) : Bool := x.units? = some 0

/-- Whether the double is neither an infinity nor not-a-number. -/
def isFinite (x : Double) : Bool := x.units?.isSome

/-- Sum rounded to nearest; opposite infinities have no sum, and a zero sum is negative only when
both terms are. -/
def add (x y : Double) : Double :=
  match x, y with
  | .nan, _ => .nan
  | _, .nan => .nan
  | .infinite a, .infinite b => if a = b then .infinite a else .nan
  | .infinite a, _ => .infinite a
  | _, .infinite b => .infinite b
  | x, y =>
    ofUnits (x.isNegative && y.isNegative) ((x.units?.getD 0) + (y.units?.getD 0))

/-- Product with a natural number, rounded to nearest. -/
def scale (x : Double) (k : Nat) : Double :=
  match x.units? with
  | some u => ofUnits x.isNegative (u * k)
  | none => x

/-- Integer part of a finite double, toward zero. -/
def whole? (x : Double) : Option Int := x.units?.map (·.tdiv unitsPerOne)

/-- Fractional part of a finite double, with the sign of the double. -/
def fraction (x : Double) : Double :=
  ofUnits x.isNegative ((x.units?.getD 0).tmod unitsPerOne)

/-- The integer that a finite double without fractional part is. -/
def integer? (x : Double) : Option Int :=
  match x.units? with
  | some u => if u % (unitsPerOne : Int) = 0 then some (u / (unitsPerOne : Int)) else none
  | none => none

/-- The 64 bits: sign, exponent field, fraction field. -/
def toBits : Double → Nat
  | .nan => 2047 * fractions + fractions / 2
  | .infinite negative => (if negative then Nat.pow 2 63 else 0) + codeLimit
  | .finite negative e f => (if negative then Nat.pow 2 63 else 0) + fieldsCode e f

/-- The double with the given 64 bits; every payload is the same not-a-number. -/
def ofBits (bits : Nat) : Double :=
  let code := bits % Nat.pow 2 63
  if codeLimit < code then .nan
  else ofCode (decide (Nat.pow 2 63 ≤ bits)) code

end Double

/-- A place on the number line extended by both infinities; `units` counts the smallest positive
double. Integers of any size and doubles are compared here, with nothing rounded. -/
inductive Extent where
  | low
  | mid (units : Int)
  | high
  deriving DecidableEq

namespace Extent

/-- Strict order of the extended line. -/
def lt : Extent → Extent → Bool
  | .low, .low => false
  | .low, _ => true
  | .mid _, .low => false
  | .mid a, .mid b => decide (a < b)
  | .mid _, .high => true
  | .high, _ => false

/-- Place of an integer. -/
def ofInt (n : Int) : Extent := .mid (n * Double.unitsPerOne)

end Extent

/-- Place of a double; not-a-number has none. -/
def Double.extent? : Double → Option Extent
  | .nan => none
  | .infinite negative => some (if negative then .low else .high)
  | x@(.finite ..) => x.units?.map .mid

/-- Whether the first double is the smaller one; false when either is not a number. -/
def Double.lt (x y : Double) : Bool :=
  match x.extent?, y.extent? with
  | some a, some b => a.lt b
  | _, _ => false

/-- Whether the first double is at most the second; false when either is not a number. -/
def Double.le (x y : Double) : Bool :=
  match x.extent?, y.extent? with
  | some a, some b => !b.lt a
  | _, _ => false

end MapEvents
