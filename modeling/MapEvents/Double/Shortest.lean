import MapEvents.Double.Basic
import MapEvents.Text.Digits
/-!
# Shortest decimal text of a double

`Double.shortest` picks the fewest significant digits that read back to the same double, and of
those the ones nearest to its exact value. `Double.text` lays them out: positional for a decimal
point between 4 places before the first digit and 16 places after it, with `.0` on whole numbers,
otherwise one digit, the others after a point, and an exponent with a sign and at least two digits.
-/

namespace MapEvents

/-- Significant digits of a positive decimal number `0.d₁d₂… * 10 ^ point`. -/
structure Significand where
  /-- Digits read as one number, without trailing zeros. -/
  digits : Nat
  /-- Place of the decimal point, counted from before the first digit. -/
  point : Int

namespace Double

/-- A magnitude in half units together with the interval of magnitudes that round to it. -/
structure Neighbourhood where
  low : Nat
  value : Nat
  high : Nat
  /-- Whether the two ends round to the magnitude too. -/
  closed : Bool

/-- Neighbourhood of the finite magnitude with this code, in half units. -/
def neighbourhood (code : Nat) : Neighbourhood :=
  let m := codeUnits code
  { low := m + codeUnits (code - 1)
    value := 2 * m
    high := m + codeUnits (code + 1)
    closed := code % 2 = 0 }

/-- Whether `num / den` lies in the neighbourhood. -/
def Neighbourhood.holds (n : Neighbourhood) (num den : Nat) : Bool :=
  if n.closed then n.low * den ≤ num && num ≤ n.high * den
  else n.low * den < num && num < n.high * den

/-- How many half units make one. -/
def halfUnitsPerOne : Nat := 2 * unitsPerOne

/-- Decimal point of a positive number of half units, counted from before its first digit. -/
def decimalPoint (halfUnits : Nat) : Int :=
  (Digits.ofNat (halfUnits * Nat.pow 10 400 / halfUnitsPerOne)).length - 400

/-- The better of the two decimals `k` and `k + 1`, in steps of `10 ^ power`, beside the value; none
if neither rounds to it. Of two candidates that are equally near, the even one is taken. -/
def nearestOnGrid (n : Neighbourhood) (power : Int) : Option Nat :=
  let up := Nat.pow 10 power.toNat * halfUnitsPerOne
  let down := Nat.pow 10 (-power).toNat
  let k := n.value * down / up
  let lower := n.holds (k * up) down
  let upper := n.holds ((k + 1) * up) down
  if lower && upper then
    let twice := 2 * n.value * down
    let middle := (2 * k + 1) * up
    if twice < middle then some k
    else if middle < twice then some (k + 1)
    else if k % 2 = 0 then some k
    else some (k + 1)
  else if lower then some k
  else if upper then some (k + 1)
  else none

/-- Drops trailing zeros, at most as many as `fuel`. -/
def dropZeros : (fuel : Nat) → Nat → Nat
  | 0, n => n
  | fuel + 1, n => if n ≠ 0 ∧ n % 10 = 0 then dropZeros fuel (n / 10) else n

/-- Tries grids of `count`, `count + 1`, … significant digits, at most `fuel` of them. -/
def searchGrids (n : Neighbourhood) (point : Int) : (fuel count : Nat) → Nat × Int
  | 0, _ => (n.value, 0)
  | fuel + 1, count =>
    match nearestOnGrid n (point - count) with
    | some k => (k, point - count)
    | none => searchGrids n point fuel (count + 1)

/-- Fewest digits that read back to the positive finite double with this code. -/
def shortest (code : Nat) : Significand :=
  let n := neighbourhood code
  let (k, power) := searchGrids n (decimalPoint n.value) 17 1
  { digits := dropZeros 20 k
    point := (Digits.ofNat k).length + power }

/-- Layout of a significand: positional in a middle range, otherwise with an exponent. -/
def layout (s : Significand) : List Char :=
  let ds := Digits.ofNat s.digits
  let count : Int := ds.length
  if s.point ≤ -4 ∨ 16 < s.point then
    let e := s.point - 1
    let fraction := if 1 < ds.length then '.' :: ds.drop 1 else []
    ds.take 1 ++ fraction ++ ['e', if e < 0 then '-' else '+'] ++ Digits.padded 2 e.natAbs
  else if s.point ≤ 0 then
    ['0', '.'] ++ List.replicate (-s.point).toNat '0' ++ ds
  else if count ≤ s.point then
    ds ++ List.replicate (s.point - count).toNat '0' ++ ['.', '0']
  else
    ds.take s.point.toNat ++ ['.'] ++ ds.drop s.point.toNat

/-- Text of a double. -/
def text : Double → String
  | .nan => "nan"
  | .infinite negative => if negative then "-inf" else "inf"
  | .finite negative e f =>
    let code := fieldsCode e f
    let body := if code = 0 then ['0', '.', '0'] else layout (shortest code)
    String.ofList (if negative then '-' :: body else body)

end Double

end MapEvents
