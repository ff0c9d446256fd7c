import MapEvents.Text.Half
import MapEvents.Text.Printable
/-!
# Quoted text

Text is quoted with apostrophes, or with double quotes when it holds an apostrophe and no double
quote. Inside, the backslash and the quote in use are escaped by a backslash; line feed, carriage
return and tab have letters; every other character that is not printable is written by its code
point in two, four or eight hexadecimal digits, the fewest that hold it; half a character is written
by its own number.
-/

namespace MapEvents.Quoted

/-- Lower-case hexadecimal digits, filled up to a width. -/
def hex (width n : Nat) : List Char :=
  let ds := Nat.toDigits 16 n
  List.replicate (width - ds.length) '0' ++ ds

/-- A code point written in two, four or eight digits. -/
def codePoint (n : Nat) : List Char :=
  if n < 0x100 then '\\' :: 'x' :: hex 2 n
  else if n < 0x10000 then '\\' :: 'u' :: hex 4 n
  else '\\' :: 'U' :: hex 8 n

/-- One character inside the given quotes. -/
def escape (quote c : Char) : List Char :=
  if c = quote ∨ c = '\\' then ['\\', c]
  else if c = '\n' then ['\\', 'n']
  else if c = '\r' then ['\\', 'r']
  else if c = '\t' then ['\\', 't']
  else if Printable.isPrintable c then [c]
  else codePoint c.toNat

/-- One character, or half of one, inside the given quotes. -/
def escapeCode (quote : Char) (n : Nat) : List Char :=
  if Half.isCode n then codePoint n else escape quote (Char.ofNat n)

/-- The quote in which a text is written. -/
def quoteFor (cs : List Char) : Char :=
  if cs.contains '\'' && !cs.contains '"' then '"' else '\''

/-- A text in quotes. -/
def quote (s : String) : String :=
  let q := quoteFor s.toList
  String.ofList (q :: (Half.codes s).flatMap (escapeCode q) ++ [q])

end MapEvents.Quoted
