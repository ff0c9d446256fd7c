import MapEvents.Proofs.Text.Digits
import MapEvents.Text.Half
/-!
# Texts without halves

A half of a character is written behind the mark. A text in which the mark does not stand is the
text of its own characters, and none of these is a half. In particular no text in ASCII holds one.
-/

namespace MapEvents

/-- All characters are in ASCII. -/
def Ascii (cs : List Char) : Prop := ∀ c ∈ cs, c.toNat < 128

namespace Ascii

variable {c : Char} {cs ds : List Char}

theorem nil : Ascii [] := by
  simp [Ascii]

theorem cons_iff : Ascii (c :: cs) ↔ c.toNat < 128 ∧ Ascii cs := List.forall_mem_cons

theorem append_iff : Ascii (cs ++ ds) ↔ Ascii cs ∧ Ascii ds := List.forall_mem_append

theorem padded (width n : Nat) : Ascii (Digits.padded width n) := by
  intro c hc
  have hdigit := Digits.isDigit_of_mem_padded hc
  simp only [Digits.isDigit, Bool.and_eq_true, decide_eq_true_eq] at hdigit
  exact Nat.lt_of_le_of_lt hdigit.2 (by decide)

end Ascii

namespace Half

/-- No character is half of one. -/
theorem isCode_toNat (c : Char) : isCode c.toNat = false := by
  have hvalid : c.toNat < 0xd800 ∨ 0xdfff < c.toNat ∧ c.toNat < 0x110000 := c.valid
  simp only [isCode, Bool.and_eq_false_iff, decide_eq_false_iff_not]
  omega

/-- Without the mark a text stands for its own characters. -/
theorem read_of_not_mem {cs : List Char} (h : mark ∉ cs) : read cs = cs.map Char.toNat := by
  induction cs with
  | nil => rfl
  | cons c rest ih =>
    obtain ⟨hfirst, hrest⟩ : mark ≠ c ∧ mark ∉ rest := by simpa using h
    cases rest with
    | nil => rfl
    | cons d rest =>
      rw [read, if_neg (Ne.symm hfirst), ih hrest]
      rfl

/-- There is no half of a character in a text without the mark. -/
theorem isIn_eq_false_of_not_mem {s : String} (h : mark ∉ s.toList) : isIn s = false := by
  rw [isIn, codes, read_of_not_mem h, List.any_map]
  exact List.any_eq_false.mpr fun c _ => by simp [isCode_toNat]

/-- There is no half of a character in a plain text. -/
theorem isIn_eq_false_of_ascii {s : String} (h : Ascii s.toList) : isIn s = false :=
  isIn_eq_false_of_not_mem fun hmark => absurd (h mark hmark) (by decide)

end Half

end MapEvents
