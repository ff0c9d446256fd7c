import MapEvents.Double.Numeral
import MapEvents.Fields
import MapEvents.Json.Encoding
import MapEvents.Value.Basic
/-!
# Reading JSON text

`Json.read` reads one JSON value that fills the whole text, or gives the offset, in characters, at
which the text goes wrong. Besides the standard values it reads `NaN`, `Infinity` and `-Infinity`.
Numbers without point and exponent are integers. Of two members of an object with one name the later
value counts, at the place of the earlier.

A text that cannot be decoded, or that asks for too much before it goes wrong, is refused as a
whole: integers have at most `maxDigits` digits, and values are nested at most `maxDepth` deep.
-/

namespace MapEvents.Json

/-- The text from some offset on. -/
structure Cursor where
  /-- The characters left, with halves marked. -/
  rest : List Char
  /-- Number of code points in front of them. -/
  offset : Nat

/-- Why a text is not read. -/
inductive Refusal where
  /-- The text goes wrong at this offset. -/
  | malformed (offset : Nat)
  /-- The text is in no encoding, or asks for too much. -/
  | unreadable
  deriving DecidableEq

/-- What was read and the text behind it. -/
abbrev Read (α : Type) := Except Refusal (α × Cursor)

/-- Most digits of an integer. -/
def maxDigits : Nat := 4300

/-- Most lists and objects that may be open at once. -/
def maxDepth : Nat := 968

/-- White space between the parts of a value. -/
def isBlank (c : Char) : Bool := c = ' ' || c = '\t' || c = '\n' || c = '\r'

namespace Cursor

/-- The text a number of characters further on. -/
def skip (c : Cursor) (n : Nat) : Cursor := ⟨c.rest.drop n, c.offset + n⟩

/-- The text behind a mark and the character that it marks, which count as one. -/
def skipMarked (c : Cursor) : Cursor := ⟨c.rest.drop 2, c.offset + 1⟩

/-- The text behind white space. -/
def skipBlank (c : Cursor) : Cursor := c.skip (c.rest.takeWhile isBlank).length

/-- Whether the text starts with this word. -/
def startsWith (c : Cursor) (word : String) : Bool := word.toList.isPrefixOf c.rest

end Cursor

/-- Value of a hexadecimal digit. -/
def hexDigit? (c : Char) : Option Nat :=
  if '0' ≤ c ∧ c ≤ '9' then some (c.toNat - 48)
  else if 'a' ≤ c ∧ c ≤ 'f' then some (c.toNat - 87)
  else if 'A' ≤ c ∧ c ≤ 'F' then some (c.toNat - 55)
  else none

/-- Value of four hexadecimal digits. -/
def hexFour? (cs : List Char) : Option Nat :=
  if (cs.drop 3).isEmpty then none
  else (cs.take 4).foldl (fun n c => n.bind fun n => (hexDigit? c).map (n * 16 + ·)) (some 0)

/-- The character that an escape letter stands for. -/
def escaped? : Char → Option Char
  | '"' => some '"'
  | '\\' => some '\\'
  | '/' => some '/'
  | 'b' => some '\x08'
  | 'f' => some '\x0c'
  | 'n' => some '\n'
  | 'r' => some '\r'
  | 't' => some '\t'
  | _ => none

/-- Reads the second half of a pair, whose escape starts at the cursor, after the first half `high`:
the code point and how many characters the escape takes. -/
def readPair (high : Nat) (c : Cursor) : Except Refusal (Nat × Nat) :=
  if c.startsWith "\\u" && !(c.rest.drop 6).isEmpty then
    match hexFour? (c.rest.drop 2) with
    | none => .error (.malformed (c.offset + 1))
    | some low =>
      .ok (if Half.isSecond low then (Half.join high low, 6) else (high, 0))
  else
    .ok (high, 0)

/-- Reads the digits of an escape by code, and the second half of a pair if there is one; the cursor
stands at the letter `u`. Gives the code point and the text behind the escape. -/
def readCode (c : Cursor) : Read Nat :=
  if (c.rest.drop 5).isEmpty then .error (.malformed c.offset)
  else
    match hexFour? (c.rest.drop 1) with
    | none => .error (.malformed c.offset)
    | some n =>
      let behind := c.skip 5
      if Half.isFirst n then (readPair n behind).map fun (n, taken) => (n, behind.skip taken)
      else .ok (n, behind)

/-- Reads the rest of a text in quotes that opened at the given offset; `read` holds the code points
read so far, the last one first. -/
def readText (opening : Nat) : (fuel : Nat) → Cursor → (read : List Nat) → Read String
  | 0, _, _ => .error (.malformed opening)
  | fuel + 1, c, read =>
    match c.rest with
    | [] => .error (.malformed opening)
    | '"' :: _ => .ok (Half.ofCodes read.reverse, c.skip 1)
    | '\\' :: [] => .error (.malformed opening)
    | '\\' :: 'u' :: _ =>
      match readCode (c.skip 1) with
      | .ok (n, c) => readText opening fuel c (n :: read)
      | .error refusal => .error refusal
    | '\\' :: e :: _ =>
      match escaped? e with
      | some ch => readText opening fuel (c.skip 2) (ch.toNat :: read)
      | none => .error (.malformed c.offset)
    | '\ue000' :: ch :: _ => readText opening fuel c.skipMarked (Half.marked ch :: read)
    | ch :: _ =>
      if ch.toNat ≤ 0x1f then .error (.malformed c.offset)
      else readText opening fuel (c.skip 1) (ch.toNat :: read)

/-- Number of characters of an integer part: a zero, or digits that start with another one. -/
def wholeLength : List Char → Nat
  | '0' :: _ => 1
  | cs => (Digits.span cs).1.length

/-- Number of characters of a point with digits behind it, zero if there is none. -/
def fractionLength : List Char → Nat
  | '.' :: rest =>
    let n := (Digits.span rest).1.length
    if n = 0 then 0 else n + 1
  | _ => 0

/-- Number of characters of an exponent with digits, zero if there is none. -/
def exponentLength : List Char → Nat
  | c :: rest =>
    if c = 'e' ∨ c = 'E' then
      let sign := match rest with
        | '+' :: _ => 1
        | '-' :: _ => 1
        | _ => 0
      let n := (Digits.span (rest.drop sign)).1.length
      if n = 0 then 0 else 1 + sign + n
    else 0
  | [] => 0

/-- Reads a number. -/
def readNumber (c : Cursor) : Read Value :=
  let sign := if c.startsWith "-" then 1 else 0
  let whole := wholeLength (c.rest.drop sign)
  if whole = 0 then .error (.malformed c.offset)
  else
    let fraction := fractionLength (c.rest.drop (sign + whole))
    let exponent := exponentLength (c.rest.drop (sign + whole + fraction))
    let length := sign + whole + fraction + exponent
    if fraction + exponent = 0 then
      if maxDigits < whole then .error .unreadable
      else
        let n := Digits.signed (sign = 1) (Digits.value ((c.rest.drop sign).take whole))
        .ok (.int n, c.skip length)
    else
      .ok (.float ((Numeral.read? (c.rest.take length)).getD .nan), c.skip length)

/-- Words that stand for a value. -/
def words : List (String × Value) :=
  [("null", .null), ("true", .bool true), ("false", .bool false), ("NaN", .float .nan),
    ("Infinity", .float (.infinite false)), ("-Infinity", .float (.infinite true))]

/-- Reads a word or a number. -/
def readPlain (c : Cursor) : Read Value :=
  match words.find? (c.startsWith ·.1) with
  | some (word, v) => .ok (v, c.skip word.length)
  | none => readNumber c

mutual
/-- Reads a value in which at most `room` lists and objects are open at once. -/
def readValue : (fuel room : Nat) → Cursor → Read Value
  | 0, _, c => .error (.malformed c.offset)
  | fuel + 1, room, c =>
    match c.rest with
    | '"' :: rest =>
      (readText c.offset (rest.length + 1) (c.skip 1) []).map fun (s, c) => (.str s, c)
    | '[' :: _ =>
      match room with
      | 0 => .error .unreadable
      | room + 1 =>
        let c := (c.skip 1).skipBlank
        if c.startsWith "]" then .ok (.list [], c.skip 1)
        else (readItems fuel room c).map fun (items, c) => (.list items, c)
    | '\x7b' :: _ =>
      match room with
      | 0 => .error .unreadable
      | room + 1 =>
        let c := (c.skip 1).skipBlank
        if c.startsWith "\x7d" then .ok (.obj [], c.skip 1)
        else (readMembers fuel room c []).map fun (members, c) => (.obj members, c)
    | _ => readPlain c

/-- Reads the items of a list up to its end. -/
def readItems : (fuel room : Nat) → Cursor → Read (List Value)
  | 0, _, c => .error (.malformed c.offset)
  | fuel + 1, room, c =>
    match readValue fuel room c with
    | .error refusal => .error refusal
    | .ok (v, c) =>
      let c := c.skipBlank
      match c.rest with
      | ']' :: _ => .ok ([v], c.skip 1)
      | ',' :: _ => (readItems fuel room (c.skip 1).skipBlank).map fun (items, c) => (v :: items, c)
      | _ => .error (.malformed c.offset)

/-- Reads the members of an object up to its end; `read` holds those read so far. -/
def readMembers : (fuel room : Nat) → Cursor → (read : Data) → Read Data
  | 0, _, c, _ => .error (.malformed c.offset)
  | fuel + 1, room, c, read =>
    if c.startsWith "\"" then
      match readText c.offset (c.rest.length + 1) (c.skip 1) [] with
      | .error refusal => .error refusal
      | .ok (name, c) =>
        let c := c.skipBlank
        if c.startsWith ":" then
          match readValue fuel room (c.skip 1).skipBlank with
          | .error refusal => .error refusal
          | .ok (v, c) =>
            let c := c.skipBlank
            let read := Fields.insert name v read
            match c.rest with
            | '\x7d' :: _ => .ok (read, c.skip 1)
            | ',' :: _ => readMembers fuel room (c.skip 1).skipBlank read
            | _ => .error (.malformed c.offset)
        else .error (.malformed c.offset)
    else .error (.malformed c.offset)
end

/-- Reads a JSON text, which is given by plain characters that stand for its bytes in UTF-8. In the
value halves of characters are marked. -/
def read (s : String) : Except Refusal Value :=
  match Encoding.decode? s with
  | none => .error .unreadable
  | some ns =>
    let cs := ns.flatMap Half.write
    match readValue (cs.length + 1) maxDepth (Cursor.mk cs 0).skipBlank with
    | .error refusal => .error refusal
    | .ok (v, c) =>
      let c := c.skipBlank
      if c.rest.isEmpty then .ok v else .error (.malformed c.offset)

end MapEvents.Json
