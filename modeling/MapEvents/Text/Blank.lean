/-!
# Blank characters

Two sets of blanks are in use. `isSpace` is white space in the wide sense, which also takes the four
information separators; names, settings and messages are trimmed by it. `isWhite` is the narrower
white-space property, by which numbers inside data are trimmed. `trim` and `isBlank` work with
either.
-/

namespace MapEvents.Blank

/-- White space by the character property: 25 characters. -/
def isWhite (c : Char) : Bool :=
  let n := c.toNat
  (0x9 ≤ n && n ≤ 0xd) || n = 0x20 || n = 0x85 || n = 0xa0 || n = 0x1680 ||
    (0x2000 ≤ n && n ≤ 0x200a) || n = 0x2028 || n = 0x2029 || n = 0x202f || n = 0x205f ||
    n = 0x3000

/-- White space in the wide sense: `isWhite` and the separators U+001C to U+001F. -/
def isSpace (c : Char) : Bool :=
  isWhite c || (0x1c ≤ c.toNat && c.toNat ≤ 0x1f)

/-- Removes blanks at both ends. -/
def trim (blank : Char → Bool) (cs : List Char) : List Char :=
  ((cs.dropWhile blank).reverse.dropWhile blank).reverse

/-- Whether nothing is left after trimming. -/
def isBlank (s : String) : Bool := s.toList.all isSpace

end MapEvents.Blank
