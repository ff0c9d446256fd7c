import MapEvents.Text.Digits
/-!
# Numbers in a fixed number of digits

A number that fits is written in exactly as many digits as were asked for, and these have its value.
-/

namespace MapEvents.Digits

/-- The value of digits is that of the library. -/
theorem value_eq_ofDigitChars (ds : List Char) : value ds = Nat.ofDigitChars 10 ds 0 := by
  simp only [value, digitValue, Nat.ofDigitChars_eq_foldl, Nat.mul_comm 10]
  rfl

/-- A number that fits a width is padded to the width. -/
theorem length_padded {width n : Nat} (hwidth : 0 < width) (h : n < Nat.pow 10 width) :
    (padded width n).length = width := by
  have hlength : (ofNat n).length ≤ width := (Nat.length_toDigits_le_iff (by decide) hwidth).mpr h
  simp only [padded, List.length_append, List.length_replicate]
  omega

theorem isDigit_of_mem_padded {width n : Nat} {c : Char} (h : c ∈ padded width n) :
    isDigit c = true := by
  rcases List.mem_append.mp h with hzero | hdigit
  · rw [List.eq_of_mem_replicate hzero]
    rfl
  · exact Nat.isDigit_of_mem_toDigits (by decide) (by decide) hdigit

theorem value_padded (width n : Nat) : value (padded width n) = n := by
  rw [value_eq_ofDigitChars, padded, Nat.ofDigitChars_append, Nat.ofDigitChars_replicate_zero,
    Nat.mul_zero, ofNat, Nat.ofDigitChars_ten_toDigits]

/-- Digits end at the first character that is none. -/
theorem span_append {ds rest : List Char} (hds : ∀ c ∈ ds, isDigit c = true)
    (hrest : ∀ c, rest.head? = some c → isDigit c = false) : span (ds ++ rest) = (ds, rest) := by
  have hspan : span rest = ([], rest) := by
    cases rest with
    | nil => rfl
    | cons c rest => simp [span, hrest c rfl]
  rw [span, List.takeWhile_append_of_pos hds, List.dropWhile_append_of_pos hds]
  simpa [span] using hspan

end MapEvents.Digits
