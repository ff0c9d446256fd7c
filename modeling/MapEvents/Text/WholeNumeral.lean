import MapEvents.Text.Blank
import MapEvents.Text.Digits
/-!
# Integers in data that are given as text

The strict form of an integer is an optional minus sign and digits without a leading zero. Data may
be looser: white space around the text, a sign of either kind, zeros in front, underscores among the
digits, and a fraction of zeros. `WholeNumeral.read` reads a text as it is if it has the strict form
and else what is left without all that.

Zeros in front may be followed by a minus sign, which then counts: `0-1` is minus one. Too many
digits are a flaw of their own only in a text that is read as it is.
-/

namespace MapEvents.WholeNumeral

/-- Why a text is no integer. -/
inductive Flaw where
  | unreadable
  | oversized
  deriving DecidableEq

/-- Most digits of the strict form. -/
def maxDigits : Nat := 4300

/-- Splits off a sign, which is a minus if the first part is true. No minus sign may follow a plus
sign. -/
def splitSign? : List Char → Option (Bool × List Char)
  | '+' :: '-' :: _ => none
  | cs => some (Digits.splitSign cs)

/-- Whether the character may start the strict form of an integer other than zero. -/
def startsStrict (c : Char) : Bool := c = '-' || ('1' ≤ c && c ≤ '9')

/-- Drops zeros and underscores behind the character `last`. What follows them has to be a minus
sign or a digit, where the text then starts, or a point or the end, and then it starts with the last
of them. -/
def dropZerosAfter? (last : Char) : List Char → Option (List Char)
  | [] => some [last]
  | c :: rest =>
    if c = '0' ∨ c = '_' then dropZerosAfter? c rest
    else if startsStrict c then some (c :: rest)
    else if c = '.' then some (last :: c :: rest)
    else none

/-- Drops zeros in front. -/
def dropZeros? : List Char → Option (List Char)
  | [] => none
  | c :: rest =>
    if c = '0' then dropZerosAfter? c rest
    else if startsStrict c then some (c :: rest)
    else none

/-- Drops a point with one or more zeros and nothing else behind it. -/
def dropFraction (cs : List Char) : List Char :=
  let fraction := (cs.dropWhile (· ≠ '.')).drop 1
  if !fraction.isEmpty && fraction.all (· = '0') then cs.takeWhile (· ≠ '.') else cs

/-- Drops underscores, unless one of them stands at an end or two stand together. -/
def dropUnderscores (cs : List Char) : List Char :=
  (Digits.dropSeparators (fun _ => true) cs).getD cs

/-- The strict form that a text stands for, as far as it can be told without reading digits. -/
def strictForm? (cs : List Char) : Option (List Char) := do
  let (negative, cs) ← splitSign? (Blank.trim Blank.isWhite cs)
  let cs := dropUnderscores (dropFraction (← dropZeros? cs))
  return if negative then '-' :: cs else cs

/-- Reads digits without a leading zero. -/
def readDigits (cs : List Char) : Except Flaw Nat :=
  let (ds, rest) := Digits.span cs
  if ds.head? ≠ some '0' ∧ maxDigits < ds.length then .error .oversized
  else if ds.isEmpty ∨ !rest.isEmpty ∨ (ds.head? = some '0' ∧ ds ≠ ['0']) then .error .unreadable
  else .ok (Digits.value ds)

/-- Reads the strict form. -/
def readStrict : List Char → Except Flaw Int
  | '-' :: ds => (readDigits ds).map fun n => -(n : Int)
  | ds => (readDigits ds).map Int.ofNat

/-- Reads a text that may not have the strict form. -/
def readLoose (cs : List Char) : Except Flaw Int :=
  match (strictForm? cs).map readStrict with
  | some (.ok n) => .ok n
  | _ => .error .unreadable

/-- Reads an integer. -/
def read (s : String) : Except Flaw Int :=
  match readStrict s.toList with
  | .error .unreadable => readLoose s.toList
  | verdict => verdict

end MapEvents.WholeNumeral
