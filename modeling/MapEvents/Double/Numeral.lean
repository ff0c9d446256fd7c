import MapEvents.Double.Basic
import MapEvents.Text.Digits
/-!
# Decimal numerals

A numeral is an optional sign, digits with an optional point among or beside them, and an optional
exponent: `1`, `-.5`, `5.`, `2.5e+3`. `inf`, `infinity` and `nan` in any case are numerals too, with
an optional sign. `Numeral.read?` gives the double nearest to the numeral's exact value and refuses
all other text.
-/

namespace MapEvents.Numeral

/-- A decimal number: `digits * 10 ^ exponent` with a sign. -/
structure Decimal where
  /-- Whether the numeral has a minus sign. -/
  negative : Bool
  /-- Digits before and after the point, read as one number. -/
  digits : Nat
  /-- Power of ten that places the point. -/
  exponent : Int

/-- The double nearest to a decimal number. A magnitude of at least `10 ^ 400` or below
`10 ^ (-400)` is decided without being computed. -/
def Decimal.toDouble (d : Decimal) : Double :=
  if d.digits = 0 then Double.ofCode d.negative 0
  else if 400 ≤ d.exponent then .infinite d.negative
  else if d.exponent + d.digits.log2 + 1 < -400 then Double.ofCode d.negative 0
  else if 0 ≤ d.exponent then
    Double.ofRatio d.negative (d.digits * Nat.pow 10 d.exponent.toNat) 1
  else
    Double.ofRatio d.negative d.digits (Nat.pow 10 (-d.exponent).toNat)

/-- Reads an optional exponent that ends the text. -/
def readExponent? : List Char → Option Int
  | [] => some 0
  | c :: rest =>
    if c = 'e' ∨ c = 'E' then
      let (negative, ds) := Digits.splitSign rest
      if !ds.isEmpty && ds.all Digits.isDigit then
        some (Digits.signed negative (Digits.value ds))
      else
        none
    else
      none

/-- The digits after an optional point, and what follows. -/
def splitFraction : List Char → List Char × List Char
  | '.' :: rest => Digits.span rest
  | cs => ([], cs)

/-- Reads an unsigned decimal numeral; at least one digit stands before or after the point. -/
def readDecimal? (negative : Bool) (cs : List Char) : Option Decimal :=
  let (whole, rest) := Digits.span cs
  let (fraction, rest) := splitFraction rest
  if whole.isEmpty && fraction.isEmpty then none
  else
    (readExponent? rest).map fun e =>
      { negative
        digits := Digits.value (whole ++ fraction)
        exponent := e - fraction.length }

/-- The word in lower case, for ASCII letters. -/
def lower (cs : List Char) : String := String.ofList (cs.map Char.toLower)

/-- Reads a numeral or one of the words for an infinity or not-a-number. -/
def read? (cs : List Char) : Option Double :=
  let (negative, rest) := Digits.splitSign cs
  let word := lower rest
  if word = "inf" ∨ word = "infinity" then some (.infinite negative)
  else if word = "nan" then some .nan
  else (readDecimal? negative rest).map Decimal.toDouble

end MapEvents.Numeral
