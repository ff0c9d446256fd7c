import MapEvents.Double.Basic
/-!
# A seeded random source

The generator keeps 624 words of 32 bits. A seed is an integer, whose size is split into words, the
low word first; the words are spread over the state, and each draw takes two tempered words to make
a double in `[0, 1)` that is a multiple of `2 ^ (-53)`. The same seed always gives the same draws.
-/

namespace MapEvents

/-- State of the generator. -/
structure Twister where
  words : Array UInt32
  /-- How many words of the current block are used up. -/
  used : Nat

namespace Twister

/-- Number of words in the state. -/
def size : Nat := 624

/-- The word at a position. -/
def wordAt (ws : Array UInt32) (i : Nat) : UInt32 := ws.getD i 0

/-- The high bits of a word, shifted down and folded back. -/
def folded (w : UInt32) (shift : UInt32) : UInt32 := w ^^^ (w >>> shift)

/-- State spread from a single word. -/
def ofWord (seed : UInt32) : Array UInt32 :=
  (List.range (size - 1)).foldl (fun ws i =>
    ws.push (1812433253 * folded (wordAt ws i) 30 + UInt32.ofNat (i + 1))) #[seed]

/-- A position in the state during seeding; behind the last word the first is set to the last. -/
def advance (ws : Array UInt32) (i : Nat) : Array UInt32 × Nat :=
  if size ≤ i + 1 then (ws.setIfInBounds 0 (wordAt ws (size - 1)), 1) else (ws, i + 1)

/-- One step of mixing the words of the seed in. -/
def mixKey (key : Array UInt32) (s : Array UInt32 × Nat × Nat) : Array UInt32 × Nat × Nat :=
  let (ws, i, j) := s
  let mixed := wordAt ws i ^^^ (folded (wordAt ws (i - 1)) 30 * 1664525)
  let w := mixed + wordAt key j + UInt32.ofNat j
  let (ws, i) := advance (ws.setIfInBounds i w) i
  (ws, i, if key.size ≤ j + 1 then 0 else j + 1)

/-- One step of mixing the state with itself. -/
def mixSelf (s : Array UInt32 × Nat) : Array UInt32 × Nat :=
  let (ws, i) := s
  let w := (wordAt ws i ^^^ (folded (wordAt ws (i - 1)) 30 * 1566083941)) - UInt32.ofNat i
  advance (ws.setIfInBounds i w) i

/-- State for a seed given as words. -/
def ofKey (key : Array UInt32) : Twister :=
  let (ws, i, _) := (List.range (max size key.size)).foldl (fun s _ => mixKey key s)
    (ofWord 19650218, 1, 0)
  let (ws, _) := (List.range (size - 1)).foldl (fun s _ => mixSelf s) (ws, i)
  { words := ws.setIfInBounds 0 0x80000000, used := size }

/-- Words of a number, the low word first; at least one. -/
def keyOf (n : Nat) : Array UInt32 :=
  let count := if n = 0 then 1 else n.log2 / 32 + 1
  ((List.range count).map fun i => UInt32.ofNat (n >>> (32 * i))).toArray

/-- State for a seed; the sign does not count. -/
def ofSeed (seed : Int) : Twister := ofKey (keyOf seed.natAbs)

/-- The next word of a block, from two neighbours and a word further on. -/
def twist (ws : Array UInt32) (i : Nat) : Array UInt32 :=
  let y := (wordAt ws i &&& 0x80000000) ||| (wordAt ws ((i + 1) % size) &&& 0x7fffffff)
  let mask : UInt32 := if y &&& 1 = 0 then 0 else 0x9908b0df
  ws.setIfInBounds i (wordAt ws ((i + 397) % size) ^^^ (y >>> 1) ^^^ mask)

/-- The next block of words. -/
def nextBlock (ws : Array UInt32) : Array UInt32 := (List.range size).foldl twist ws

/-- Spreads the bits of a word. -/
def temper (y : UInt32) : UInt32 :=
  let y := y ^^^ (y >>> 11)
  let y := y ^^^ ((y <<< 7) &&& 0x9d2c5680)
  let y := y ^^^ ((y <<< 15) &&& 0xefc60000)
  y ^^^ (y >>> 18)

/-- The next word. -/
def word (t : Twister) : UInt32 × Twister :=
  let t := if size ≤ t.used then { words := nextBlock t.words, used := 0 } else t
  (temper (wordAt t.words t.used), { t with used := t.used + 1 })

/-- The next double in `[0, 1)`. -/
def draw (t : Twister) : Double × Twister :=
  let (a, t) := t.word
  let (b, t) := t.word
  (Double.ofRatio false ((a >>> 5).toNat * 67108864 + (b >>> 6).toNat) (Nat.pow 2 53), t)

end Twister

end MapEvents
