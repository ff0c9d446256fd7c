import MapEvents.Text.Half
/-!
# Encodings of a JSON text

The bytes of a JSON text tell by their first zeros in which of five encodings it is written, because
its first two characters are ASCII. `Encoding.detect` looks at them, and `Encoding.decode?` reads
the code points; halves of characters that stand alone are kept, and bytes that are no characters at
all refuse the text.

The bytes come from a text in the most common encoding, UTF-8, so in that encoding nothing is left
to decode. A byte-order mark at the start of such a text is dropped.
-/

namespace MapEvents.Json

/-- Which byte of a number counts most. -/
inductive ByteOrder where
  | bigEnd
  | littleEnd
  deriving DecidableEq

/-- Number with these bytes. -/
def ByteOrder.number (order : ByteOrder) (bytes : List Nat) : Nat :=
  let bytes := match order with
    | .bigEnd => bytes
    | .littleEnd => bytes.reverse
  bytes.foldl (fun n b => n * 256 + b) 0

/-- How characters are written in bytes. -/
inductive Encoding where
  | utf8
  | utf16 (order : ByteOrder)
  | utf32 (order : ByteOrder)
  deriving DecidableEq

namespace Encoding

/-- Encoding of a text that starts with these bytes. -/
def detect : List Nat → Encoding
  | [0, _] => .utf16 .bigEnd
  | [_, 0] => .utf16 .littleEnd
  | 0 :: b :: _ :: _ :: _ => if b = 0 then .utf32 .bigEnd else .utf16 .bigEnd
  | _ :: 0 :: c :: d :: _ => if c = 0 ∧ d = 0 then .utf32 .littleEnd else .utf16 .littleEnd
  | _ => .utf8

/-- The code points of units of 16 bits: two halves that follow each other are joined. -/
def joinHalves : List Nat → List Nat
  | [] => []
  | [n] => [n]
  | m :: n :: rest =>
    if Half.isFirst m && Half.isSecond n then Half.join m n :: joinHalves rest
    else m :: joinHalves (n :: rest)

/-- Numbers of two bytes each. -/
def pairs? (order : ByteOrder) : List Nat → Option (List Nat)
  | [] => some []
  | a :: b :: rest => (pairs? order rest).map (order.number [a, b] :: ·)
  | _ => none

/-- Numbers of four bytes each. -/
def fours? (order : ByteOrder) : List Nat → Option (List Nat)
  | [] => some []
  | a :: b :: c :: d :: rest => (fours? order rest).map (order.number [a, b, c, d] :: ·)
  | _ => none

/-- The numbers as code points, unless one of them is too large. -/
def codePoints? (ns : List Nat) : Option (List Nat) :=
  if ns.all (· < 0x110000) then some ns else none

/-- The code points of characters, without a byte-order mark in front. -/
def withoutOrderMark (cs : List Char) : List Nat :=
  (if cs.head? = some '\ufeff' then cs.drop 1 else cs).map Char.toNat

/-- The code points of a text whose bytes are those of the plain characters of `s` in UTF-8. -/
def decode? (s : String) : Option (List Nat) :=
  let bytes := s.toUTF8.toList.map UInt8.toNat
  match detect bytes with
  | .utf8 => some (withoutOrderMark s.toList)
  | .utf16 order => (pairs? order bytes).map joinHalves
  | .utf32 order => (fours? order bytes).bind codePoints?

end Encoding

end MapEvents.Json
