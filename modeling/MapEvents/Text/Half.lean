/-!
# Halves of characters

Some encodings write a character past U+FFFF as two halves, which are numbers from U+D800 to U+DFFF.
Text from outside may hold such a half alone, although it is no character. In a text of this library
a half is written as two characters: a mark, U+E000, and a character that tells which half it is.
The mark itself is written twice, so that nothing else is taken for a half.

`Half.ofCodes` writes code points in this way and `Half.codes` reads them back; `codes_ofCodes` says
that nothing is lost, so different texts differ in their code points. Characters from U+D000 to
U+D7FF tell the halves: they come before the mark, so that texts stay in the order of their code
points. Text with a half can be kept and compared, but not sent.
-/

namespace MapEvents.Half

/-- Whether the number is that of a half. -/
def isCode (n : Nat) : Bool := 0xd800 ≤ n && n < 0xe000

/-- The character in front of one that tells a half, or of another mark. -/
def mark : Char := '\ue000'

/-- Distance from the character that tells a half to the half. -/
def distance : Nat := 0x800

/-- A code point as it is written in a text. -/
def write (n : Nat) : List Char :=
  if isCode n then [mark, Char.ofNat (n - distance)]
  else if n = mark.toNat then [mark, mark]
  else [Char.ofNat n]

/-- The code point that a mark and the character behind it stand for. -/
def marked (c : Char) : Nat := if c = mark then c.toNat else c.toNat + distance

/-- The code points that characters stand for. -/
def read : List Char → List Nat
  | [] => []
  | [c] => [c.toNat]
  | c :: d :: rest => if c = mark then marked d :: read rest else c.toNat :: read (d :: rest)

/-- The text of code points. -/
def ofCodes (ns : List Nat) : String := String.ofList (ns.flatMap write)

/-- The code points of a text. -/
def codes (s : String) : List Nat := read s.toList

/-- The text of characters none of which is half of one. -/
def ofPlain (s : String) : String := ofCodes (s.toList.map Char.toNat)

/-- The characters of a text without halves. -/
def toPlain (s : String) : String := String.ofList ((codes s).map Char.ofNat)

/-- Number of code points of a text. -/
def length (s : String) : Nat := (codes s).length

/-- Whether the text holds a half. -/
def isIn (s : String) : Bool := (codes s).any isCode

/-- The text with three replacement characters, one for each byte of a written half, in place of
each half. -/
def replaced (s : String) : String :=
  ofCodes ((codes s).flatMap fun n => if isCode n then List.replicate 3 0xfffd else [n])

/-- Whether a half is the first of two. -/
def isFirst (n : Nat) : Bool := 0xd800 ≤ n && n < 0xdc00

/-- Whether a half is the second of two. -/
def isSecond (n : Nat) : Bool := 0xdc00 ≤ n && n < 0xe000

/-- Code point of the character that two halves make together. -/
def join (first second : Nat) : Nat := 0x10000 + (first - 0xd800) * 1024 + (second - 0xdc00)

/-- The number of a character is the number it was made of. -/
theorem toNat_ofNat {n : Nat} (h : n.isValidChar) : (Char.ofNat n).toNat = n := by
  rw [Char.ofNat, dif_pos h]
  rfl

/-- Reading starts with the code point that was written first. -/
theorem read_write_append {n : Nat} (h : n.isValidChar ∨ isCode n) (cs : List Char) :
    read (write n ++ cs) = n :: read cs := by
  by_cases hc : isCode n = true
  · have hb := hc
    simp only [isCode, Bool.and_eq_true, decide_eq_true_eq] at hb
    have hn : (Char.ofNat (n - distance)).toNat = n - distance :=
      toNat_ofNat (by simp only [Nat.isValidChar, distance]; omega)
    have hm : Char.ofNat (n - distance) ≠ mark := fun e => by
      have e := congrArg Char.toNat e
      rw [hn] at e
      have : mark.toNat = 0xe000 := rfl
      simp only [distance] at e
      omega
    have hd : n - distance + distance = n := by simp only [distance]; omega
    simp [write, read, marked, hc, hm, hn, hd]
  · have hv : n.isValidChar := h.resolve_right hc
    by_cases hm : n = mark.toNat
    · rw [show write n = [mark, mark] by simp only [write, if_neg hc, if_pos hm]]
      simp [read, marked, hm]
    · have hn := toNat_ofNat hv
      have he : Char.ofNat n ≠ mark := fun e => hm (hn ▸ congrArg Char.toNat e)
      cases cs <;> simp [write, read, hc, hm, he, hn]

/-- What was written is read back. -/
theorem read_flatMap_write {ns : List Nat} (h : ∀ n ∈ ns, n.isValidChar ∨ isCode n) :
    read (ns.flatMap write) = ns := by
  induction ns with
  | nil => rfl
  | cons n rest ih =>
    simp only [List.mem_cons, forall_eq_or_imp] at h
    rw [List.flatMap_cons, read_write_append h.1, ih h.2]

/-- A text keeps its code points. -/
theorem codes_ofCodes {ns : List Nat} (h : ∀ n ∈ ns, n.isValidChar ∨ isCode n) :
    codes (ofCodes ns) = ns := by
  simp [codes, ofCodes, read_flatMap_write h]

end MapEvents.Half
