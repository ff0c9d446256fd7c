import MapEvents.Calendar.Moment
/-!
# Days and their dates

`Date.ofDay` splits a day number into cycles of years and these into months, and `Date.toDay` adds
the parts up again. Every day of the calendar has a date of the calendar, and its number is that
day.
-/

namespace MapEvents.Date

/-! ## Months of a year -/

/-- A day that lies within the given months is a day of one of them, behind all months before it. -/
theorem splitMonths_of_lt {lengths : List Nat} (month : Nat) {day : Nat}
    (h : day < lengths.foldr (· + ·) 0) :
    ∃ k, k < lengths.length ∧ (splitMonths lengths month day).1 = month + k ∧
      1 ≤ (splitMonths lengths month day).2 ∧
      (splitMonths lengths month day).2 ≤ lengths.getD k 0 ∧
      (lengths.take k).foldr (· + ·) 0 + ((splitMonths lengths month day).2 - 1) = day := by
  induction lengths generalizing month day with
  | nil => exact absurd h (Nat.not_lt_zero day)
  | cons length rest ih =>
    rw [splitMonths]
    by_cases hday : day < length
    · rw [if_pos hday]
      exact ⟨0, by simp, rfl, by simp, hday, by simp⟩
    · rw [if_neg hday]
      have hrest : day - length < rest.foldr (· + ·) 0 := by
        rw [List.foldr_cons] at h
        omega
      obtain ⟨k, hk, hmonth, hfirst, hlast, hsum⟩ := ih (month + 1) hrest
      refine ⟨k + 1, by simpa using hk, by omega, hfirst, by simpa using hlast, ?_⟩
      rw [List.take_succ_cons, List.foldr_cons]
      omega

/-- Number of days of a year. -/
def yearLength (leap : Bool) : Nat := if leap then 366 else 365

/-- The months of a year have as many days as the year. -/
theorem foldr_monthLengths (leap : Bool) :
    (monthLengths leap).foldr (· + ·) 0 = yearLength leap := by
  cases leap <;> rfl

/-! ## Years of the calendar -/

/-- The days before a year, by the cycles that the year lies in. -/
theorem daysBeforeYear_of_cycles {c q f y : Nat} (hq : q ≤ 3) (hf : f ≤ 24) (hy : y ≤ 3) :
    daysBeforeYear (c * 400 + q * 100 + f * 4 + y + 1) =
      c * 146097 + q * 36524 + f * 1461 + y * 365 := by
  unfold daysBeforeYear
  omega

/-- The last year of a cycle of four is a leap year, unless it is the last of a cycle of a hundred
and not of four hundred. -/
theorem isLeap_of_cycles {c q f : Nat} (hf : f ≤ 24) (h : f = 24 → q = 3) :
    isLeap (c * 400 + q * 100 + f * 4 + 3 + 1) = true := by
  by_cases hlast : f = 24
  · obtain rfl := h hlast
    subst hlast
    have h4 : (c * 400 + 3 * 100 + 24 * 4 + 3 + 1) % 4 = 0 := by omega
    have h400 : (c * 400 + 3 * 100 + 24 * 4 + 3 + 1) % 400 = 0 := by omega
    simp [isLeap, h4, h400]
  · have h4 : (c * 400 + q * 100 + f * 4 + 3 + 1) % 4 = 0 := by omega
    have h100 : (c * 400 + q * 100 + f * 4 + 3 + 1) % 100 ≠ 0 := by omega
    simp [isLeap, h4, h100]

/-- A day lies in its year, behind all days of the years before. -/
theorem splitYears_spec (n : Nat) :
    1 ≤ (splitYears n).1 ∧ daysBeforeYear (splitYears n).1 + (splitYears n).2 = n ∧
      (splitYears n).2 < yearLength (isLeap (splitYears n).1) := by
  obtain ⟨q, hq⟩ : ∃ q, q = min (n % 146097 / 36524) 3 := ⟨_, rfl⟩
  obtain ⟨r, hr⟩ : ∃ r, r = n % 146097 - q * 36524 := ⟨_, rfl⟩
  obtain ⟨y, hy⟩ : ∃ y, y = min (r % 1461 / 365) 3 := ⟨_, rfl⟩
  have hsplit : splitYears n =
      (n / 146097 * 400 + q * 100 + r / 1461 * 4 + y + 1, r % 1461 - y * 365) := by
    simp only [splitYears, hq, hr, hy]
  have hcentury : r < 36524 ∨ q = 3 ∧ r = 36524 := by omega
  have hfour : r / 1461 ≤ 24 := by omega
  rw [hsplit]
  refine ⟨by simp, ?_, ?_⟩
  · rw [daysBeforeYear_of_cycles (by omega) hfour (by omega)]
    omega
  · by_cases hyear : y = 3 ∧ r % 1461 = 1460
    · -- Only a leap year has a day of this number.
      have hleap : isLeap (n / 146097 * 400 + q * 100 + r / 1461 * 4 + 3 + 1) = true :=
        isLeap_of_cycles hfour (by omega)
      rw [hyear.1, hleap, hyear.2]
      exact (by decide : 1460 - 3 * 365 < yearLength true)
    · have hday : r % 1461 - y * 365 < 365 := by omega
      refine Nat.lt_of_lt_of_le hday ?_
      unfold yearLength
      split <;> decide

/-! ## Dates of the calendar -/

/-- The number of the date of a day is that day. -/
theorem toDay_ofDay (n : Nat) : (ofDay n).toDay = n := by
  obtain ⟨-, hyear, hday⟩ := splitYears_spec n
  rw [← foldr_monthLengths] at hday
  obtain ⟨k, -, hmonth, -, -, hsum⟩ := splitMonths_of_lt 1 hday
  unfold daysBeforeYear at hyear
  simp only [toDay, ofDay, daysBeforeYear, daysBeforeMonth, hmonth, Nat.add_sub_cancel_left]
  omega

example : ofDay 3652058 = ⟨9999, 12, 31⟩ ∧ (ofDay 3652058).toDay = 3652058 := by decide

/-- Every day of the calendar has a date of the calendar. -/
theorem isValid_ofDay {n : Nat} (h : n < calendarDays) : (ofDay n).isValid = true := by
  obtain ⟨hfirst, hyear, hday⟩ := splitYears_spec n
  have hlast : (splitYears n).1 ≤ 9999 := by
    unfold daysBeforeYear at hyear
    unfold calendarDays at h
    omega
  rw [← foldr_monthLengths] at hday
  obtain ⟨k, hk, hmonth, hone, hlength, -⟩ := splitMonths_of_lt 1 hday
  replace hk : k < 12 := hk
  simp only [isValid, isDayOfYear, ofDay, hmonth, Nat.add_sub_cancel_left, Bool.and_eq_true,
    decide_eq_true_eq]
  exact ⟨hfirst, ⟨⟨⟨hlast, by omega⟩, by omega⟩, hone⟩, hlength⟩

end MapEvents.Date
