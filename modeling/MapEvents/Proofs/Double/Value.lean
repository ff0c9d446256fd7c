import Mathlib.Algebra.Order.Field.Power
import Mathlib.Data.Rat.Cast.Order
import Mathlib.Order.WithBot
import Mathlib.Tactic.FieldSimp
import Mathlib.Tactic.NormNum
import MapEvents.Double.Basic
/-!
# Exact values of doubles

A finite double stands for a rational number, which its sign, its exponent field and its fraction
field determine. Counting in units of the smallest positive double loses nothing: the line on which
integers and doubles are compared is the line of rational numbers with both infinities, whose places
are kept as integers.
-/

namespace MapEvents

/-- The rational numbers with both infinities. -/
abbrev Line := WithBot (WithTop ℚ)

namespace Line

/-- A rational number on the line. -/
def of (q : ℚ) : Line := ((q : WithTop ℚ) : WithBot (WithTop ℚ))

variable {p q : ℚ}

@[simp] theorem of_lt_of : of p < of q ↔ p < q := WithBot.coe_lt_coe.trans WithTop.coe_lt_coe

@[simp] theorem of_le_of : of p ≤ of q ↔ p ≤ q := WithBot.coe_le_coe.trans WithTop.coe_le_coe

@[simp] theorem of_inj : of p = of q ↔ p = q := WithBot.coe_inj.trans WithTop.coe_inj

@[simp] theorem bot_lt_of : ⊥ < of q := WithBot.bot_lt_coe _

@[simp] theorem of_lt_top : of q < ⊤ := WithBot.coe_lt_coe.mpr (WithTop.coe_lt_top q)

@[simp] theorem of_ne_bot : of q ≠ ⊥ := bot_lt_of.ne'

@[simp] theorem of_ne_top : of q ≠ ⊤ := of_lt_top.ne

end Line

namespace Double

/-- The magnitude of a finite double. The leading one of a significand is not written; a double
whose exponent field is zero has none. -/
def magnitude (exponent : Fin 2047) (fraction : Fin 4503599627370496) : ℚ :=
  if exponent.val = 0 then (fraction.val : ℚ) / 2 ^ 52 * 2 ^ (-1022 : ℤ)
  else (1 + (fraction.val : ℚ) / 2 ^ 52) * 2 ^ ((exponent.val : ℤ) - 1023)

/-- The rational number that a finite double stands for. -/
def rational? : Double → Option ℚ
  | .finite negative e f => some (if negative then -magnitude e f else magnitude e f)
  | _ => none

/-- Place of a double among the rational numbers; not-a-number has none. -/
def value? : Double → Option Line
  | .infinite negative => some (if negative then ⊥ else ⊤)
  | x => x.rational?.map Line.of

/-- The smallest positive double. -/
def unit : ℚ := 2 ^ (-1074 : ℤ)

theorem unit_pos : 0 < unit := zpow_pos two_pos _

theorem cast_pow_two (k : ℕ) : ((Nat.pow 2 k : ℕ) : ℚ) = 2 ^ k := by
  rw [Nat.pow_eq, Nat.cast_pow, Nat.cast_ofNat]

/-- As many units as are counted for it make one. -/
theorem unitsPerOne_mul_unit : (unitsPerOne : ℚ) * unit = 1 := by
  have hunits : (unitsPerOne : ℚ) = 2 ^ ((1074 : ℕ) : ℤ) := by
    unfold unitsPerOne
    -- As a literal the exponent would be evaluated.
    generalize 1074 = k
    exact (cast_pow_two k).trans (zpow_natCast 2 k).symm
  rw [hunits, unit, ← zpow_add₀ two_ne_zero, Nat.cast_ofNat, add_neg_cancel, zpow_zero]

/-- The smallest double of each exponent field, in units. -/
theorem zpow_eq_units (k : ℕ) : (2 : ℚ) ^ ((k : ℤ) - 1022) = 2 ^ k * 2 ^ 52 * unit := by
  have hexponent : (k : ℤ) - 1022 = (k : ℤ) + (52 : ℕ) + -1074 := by omega
  rw [hexponent, zpow_add₀ two_ne_zero, zpow_add₀ two_ne_zero, zpow_natCast, zpow_natCast, unit]

/-- Units count the magnitude exactly. -/
theorem codeUnits_mul_unit (e : Fin 2047) (f : Fin 4503599627370496) :
    (codeUnits (fieldsCode e f) : ℚ) * unit = magnitude e f := by
  have hf : f.val < fractions := f.isLt
  have hfractions : (fractions : ℚ) = 2 ^ 52 := by norm_num [fractions]
  by_cases he : e.val = 0
  · have hcode : fieldsCode e f = f.val := by rw [fieldsCode, he, Nat.zero_mul, Nat.zero_add]
    have hpow := zpow_eq_units 0
    rw [Nat.cast_zero, zero_sub, pow_zero, one_mul] at hpow
    rw [codeUnits, hcode, if_pos hf, magnitude, if_pos he, hpow]
    field_simp
  · obtain ⟨k, hk⟩ := Nat.exists_eq_succ_of_ne_zero he
    have hcode : fieldsCode e f = fractions * (k + 1) + f.val := by
      rw [fieldsCode, hk, Nat.mul_comm]
    have hlarge : ¬fractions * (k + 1) + f.val < fractions := by
      rw [Nat.mul_succ]
      omega
    have hdiv : (fractions * (k + 1) + f.val) / fractions = k + 1 := by
      rw [Nat.mul_add_div (by decide), Nat.div_eq_of_lt hf, Nat.add_zero]
    have hmod : (fractions * (k + 1) + f.val) % fractions = f.val := by
      rw [Nat.mul_add_mod, Nat.mod_eq_of_lt hf]
    have hexponent : (e.val : ℤ) - 1023 = (k : ℤ) - 1022 := by omega
    rw [codeUnits, hcode, if_neg hlarge, hdiv, hmod, magnitude, if_neg he, hexponent,
      zpow_eq_units, Nat.add_sub_cancel, Nat.cast_mul, Nat.cast_add, cast_pow_two, hfractions]
    field_simp

/-- The rational number of a double is its count of units. -/
theorem rational?_eq (x : Double) : x.rational? = x.units?.map fun u : ℤ => (u : ℚ) * unit := by
  cases x with
  | nan => rfl
  | infinite negative => rfl
  | finite negative e f => cases negative <;> simp [units?, rational?, codeUnits_mul_unit]

end Double

namespace Extent

/-- The place among the rational numbers. -/
def value : Extent → Line
  | .low => ⊥
  | .mid units => .of (units * Double.unit)
  | .high => ⊤

/-- Finite extents lie in the order of their units. -/
theorem value_mid_lt_iff (u v : ℤ) : (mid u).value < (mid v).value ↔ u < v := by
  rw [value, value, Line.of_lt_of, mul_lt_mul_iff_left₀ Double.unit_pos, Int.cast_lt]

/-- Places are ordered as their values. -/
theorem lt_iff (a b : Extent) : a.lt b = true ↔ a.value < b.value := by
  cases a with
  | low => cases b <;> simp [lt, value]
  | mid u =>
    cases b with
    | low => simp [lt, value]
    | mid v => rw [value_mid_lt_iff, lt, decide_eq_true_iff]
    | high => simp [lt, value]
  | high => cases b <;> simp [lt, value]

/-- Extents of which neither is less than the other are the same. -/
theorem eq_of_not_lt {a b : Extent} (hab : ¬a.lt b = true) (hba : ¬b.lt a = true) : a = b := by
  cases a <;> cases b <;> simp_all [lt]
  omega

/-- Different extents lie at different places. -/
theorem value_inj {a b : Extent} : a.value = b.value ↔ a = b := by
  refine ⟨fun h => eq_of_not_lt ?_ ?_, congrArg value⟩
  · exact fun hab => ((lt_iff a b).mp hab).ne h
  · exact fun hba => ((lt_iff b a).mp hba).ne h.symm

/-- An integer lies at its own place. -/
theorem value_ofInt (n : Int) : (ofInt n).value = .of n := by
  rw [ofInt, value, Int.cast_mul, Int.cast_natCast, mul_assoc, Double.unitsPerOne_mul_unit, mul_one]

end Extent

namespace Double

/-- The place of a double is that of its extent, if it has one. -/
theorem value?_eq (x : Double) : x.value? = x.extent?.map Extent.value := by
  cases x with
  | nan => rfl
  | infinite negative => cases negative <;> rfl
  | finite negative e f =>
    rw [value?, rational?_eq, extent?, Option.map_map, Option.map_map]
    · rfl
    · simp

/-- Doubles are compared by their values. -/
theorem le_iff (x y : Double) :
    x.le y = true ↔ ∃ a b, x.value? = some a ∧ y.value? = some b ∧ a ≤ b := by
  rw [le, value?_eq, value?_eq]
  cases x.extent? <;> cases y.extent? <;> simp [← Bool.not_eq_true, Extent.lt_iff]

/-- A double is less than another exactly if both have places and its own lies below. -/
theorem lt_iff (x y : Double) :
    x.lt y = true ↔ ∃ a b, x.value? = some a ∧ y.value? = some b ∧ a < b := by
  rw [lt, value?_eq, value?_eq]
  cases x.extent? <;> cases y.extent? <;> simp [Extent.lt_iff]

/-- Only not-a-number has no value. -/
theorem value?_eq_none_iff {x : Double} : x.value? = none ↔ x = .nan := by
  cases x with
  | nan => simp [value?, rational?]
  | infinite negative => simp [value?]
  | finite negative e f => simp [value?, rational?]

/-- The value of a double of which the units are known. -/
theorem value?_of_units {x : Double} {u : ℤ} (h : x.units? = some u) :
    x.value? = some (.of (u * unit)) := by
  cases x with
  | nan => cases h
  | infinite negative => cases h
  | finite negative e f =>
    rw [value?, rational?_eq, h]
    · rfl
    · simp

/-- A double is zero if it stands for the number zero, whatever its sign. -/
theorem isZero_iff (x : Double) : x.isZero = true ↔ x.value? = some (.of 0) := by
  rw [isZero, decide_eq_true_iff]
  constructor
  · intro h
    rw [value?_of_units h, Int.cast_zero, zero_mul]
  · intro h
    cases hunits : x.units? with
    | none =>
      cases x with
      | nan => cases h
      | infinite negative =>
        cases negative with
        | false => exact absurd (Option.some.inj h).symm Line.of_ne_top
        | true => exact absurd (Option.some.inj h).symm Line.of_ne_bot
      | finite negative e f => cases hunits
    | some u =>
      rw [value?_of_units hunits, Option.some_inj, Line.of_inj, mul_eq_zero] at h
      rw [Int.cast_eq_zero.mp (h.resolve_right unit_pos.ne')]

theorem value?_zero : zero.value? = some (.of 0) := by
  have hunits : zero.units? = some 0 := by decide +kernel
  simpa using value?_of_units hunits

theorem value?_one : (ofInt 1).value? = some (.of 1) := by
  have hunits : (ofInt 1).units? = some (unitsPerOne : ℤ) := by decide +kernel
  rw [value?_of_units hunits, Int.cast_natCast, unitsPerOne_mul_unit]

end Double

end MapEvents
