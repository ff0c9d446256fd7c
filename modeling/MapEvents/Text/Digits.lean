/-!
# Digit sequences

A digit sequence is a list of the characters `0` to `9`. `Digits.value` reads one in base ten and
`Digits.ofNat` writes one. `Digits.joined?` reads a sequence in which single underscores may stand
between two digits; it keeps the digits and refuses every other use of an underscore.
-/

namespace MapEvents.Digits

/-- Whether the character is one of the ten ASCII digits. -/
def isDigit (c : Char) : Bool := '0' ≤ c && c ≤ '9'

/-- Value of one ASCII digit. -/
def digitValue (c : Char) : Nat := c.toNat - 48

/-- Value of a digit sequence in base ten. -/
def value (ds : List Char) : Nat := ds.foldl (fun n d => n * 10 + digitValue d) 0

/-- Digit sequence of a number in base ten, without leading zeros. -/
def ofNat (n : Nat) : List Char := Nat.toDigits 10 n

/-- A digit sequence of at least this many digits, filled up with leading zeros. -/
def padded (width n : Nat) : List Char :=
  let ds := ofNat n
  List.replicate (width - ds.length) '0' ++ ds

/-- The leading digits and what follows them. -/
def span (cs : List Char) : List Char × List Char :=
  (cs.takeWhile isDigit, cs.dropWhile isDigit)

/-- Removes underscores that stand between two characters accepted by `inner`; an underscore
anywhere else refuses the text. -/
def dropSeparators (inner : Char → Bool) : List Char → Option (List Char)
  | [] => some []
  | '_' :: _ => none
  | c :: '_' :: d :: rest =>
    if inner c && inner d then (dropSeparators inner (d :: rest)).map (c :: ·) else none
  | c :: rest => (dropSeparators inner rest).map (c :: ·)

/-- Reads digits with single underscores between them. -/
def joined? (cs : List Char) : Option (List Char) :=
  match dropSeparators isDigit cs with
  | some ds => if !ds.isEmpty && ds.all isDigit then some ds else none
  | none => none

/-- Splits off a leading sign; the first part tells whether the sign is a minus. -/
def splitSign : List Char → Bool × List Char
  | '-' :: rest => (true, rest)
  | '+' :: rest => (false, rest)
  | cs => (false, cs)

/-- The integer with this sign and magnitude. -/
def signed (negative : Bool) (n : Nat) : Int := if negative then -n else n

end MapEvents.Digits
