import MapEvents.Double.Numeral
import MapEvents.Text.Blank
import MapEvents.Text.DecimalDigit
/-!
# Numbers in free text

Settings and action parameters give numbers as text. White space around the number is ignored,
digits of every script count, and single underscores may stand between digits.
-/

namespace MapEvents.NumberText

/-- More digits than this are not read as an integer. -/
def maxDigits : Nat := 4300

/-- Reads an integer. -/
def readWhole? (s : String) : Option Int :=
  let cs := (Blank.trim Blank.isWhite s.toList).map DecimalDigit.toAscii
  let (negative, rest) := Digits.splitSign cs
  match Digits.joined? rest with
  | some ds =>
    if ds.length ≤ maxDigits then some (Digits.signed negative (Digits.value ds)) else none
  | none => none

/-- Reads a double. -/
def readReal? (s : String) : Option Double :=
  let cs := (Blank.trim Blank.isWhite s.toList).map DecimalDigit.toAscii
  match Digits.dropSeparators Digits.isDigit cs with
  | some ds => Numeral.read? ds
  | none => none

end MapEvents.NumberText
