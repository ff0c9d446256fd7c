import MapEvents.Calendar.Stamp
import MapEvents.Proofs.Calendar.Days
import MapEvents.Proofs.Text.Digits
/-!
# Moments that are written and read

The text of a moment is read back as the same moment, in either style, as long as its offset is less
than a day. Every moment that is read from a text has such an offset.
-/

namespace MapEvents

/-- The offset, if it is known, is less than a day. -/
def Moment.Writable (m : Moment) : Prop :=
  ∀ minutes, m.offset = some minutes → minutes.natAbs < 1440

namespace Stamp

open Moment

/-! ## Reading what was written, part by part -/

/-- A number that was padded to a width is read back from as many digits. -/
theorem readDigits?_padded {width n : Nat} (hwidth : 0 < width) (h : n < Nat.pow 10 width)
    (rest : List Char) : readDigits? width (Digits.padded width n ++ rest) = some (n, rest) := by
  have hlength := Digits.length_padded hwidth h
  have htake : (Digits.padded width n ++ rest).take width = Digits.padded width n :=
    List.take_left' hlength
  have hdrop : (Digits.padded width n ++ rest).drop width = rest := List.drop_left' hlength
  have hdigits : (Digits.padded width n).all Digits.isDigit = true :=
    List.all_eq_true.mpr fun c hc => Digits.isDigit_of_mem_padded hc
  simp only [readDigits?, htake, hdrop, hlength, hdigits, and_self, if_true, Digits.value_padded]

theorem readDigits?_two {n : Nat} (h : n < 100) (rest : List Char) :
    readDigits? 2 (two n ++ rest) = some (n, rest) :=
  readDigits?_padded (by decide) h rest

@[simp]
theorem readChar?_cons (c : Char) (rest : List Char) : readChar? c (c :: rest) = some rest :=
  if_pos rfl

/-- A date is read back from its text. -/
theorem readDate?_dateText {d : Date} (h : d.isValid = true) (rest : List Char) :
    readDate? (dateText d ++ rest) = some (d, rest) := by
  obtain ⟨-, hday⟩ : 1 ≤ d.year ∧ d.isDayOfYear = true := by simpa [Date.isValid] using h
  obtain ⟨hyear, hmonth, hdays⟩ : d.year < 10000 ∧ d.month < 100 ∧ d.day < 100 := by
    have hlength : ∀ k, (Date.monthLengths (Date.isLeap d.year)).getD k 0 ≤ 31 := by
      intro k
      have hmonths : ∀ n ∈ Date.monthLengths (Date.isLeap d.year), n ≤ 31 := by
        cases Date.isLeap d.year <;> decide
      rw [List.getD_eq_getElem?_getD]
      cases hk : (Date.monthLengths (Date.isLeap d.year))[k]? with
      | none => simp
      | some n => exact hmonths n (List.mem_of_getElem? hk)
    have hlast := hlength (d.month - 1)
    simp only [Date.isDayOfYear, Bool.and_eq_true, decide_eq_true_eq] at hday
    omega
  have hread := readDigits?_padded (by decide : 0 < 4) hyear
  simp only [readDate?, dateText, List.append_assoc, List.cons_append, hread, readChar?_cons,
    readDigits?_two hmonth, readDigits?_two hdays, hday, Option.bind_eq_bind, Option.bind_some,
    if_true]

/-- Behind a time of day there is no digit and no fraction. -/
def Ends (rest : List Char) : Prop :=
  ∀ c, rest.head? = some c → Digits.isDigit c = false ∧ c ≠ '.' ∧ c ≠ ','

theorem readFraction?_of_ends {rest : List Char} (h : Ends rest) :
    readFraction? rest = some (0, rest) := by
  cases rest with
  | nil => rfl
  | cons c rest =>
    obtain ⟨-, hpoint, hcomma⟩ := h c rfl
    simp [readFraction?, hpoint, hcomma]

/-- A fraction is read back from its six digits. -/
theorem readFraction?_padded {fraction : Nat} (h : fraction < 1000000) {rest : List Char}
    (hrest : Ends rest) :
    readFraction? ('.' :: Digits.padded 6 fraction ++ rest) = some (fraction, rest) := by
  have hlength : (Digits.padded 6 fraction).length = 6 := Digits.length_padded (by decide) h
  have hspan : Digits.span (Digits.padded 6 fraction ++ rest) = (Digits.padded 6 fraction, rest) :=
    Digits.span_append (fun c hc => Digits.isDigit_of_mem_padded hc) fun c hc => (hrest c hc).1
  have hmicros : fractionMicros (Digits.padded 6 fraction) = fraction := by
    have htake : (Digits.padded 6 fraction).take 6 = Digits.padded 6 fraction :=
      List.take_of_length_le (Nat.le_of_eq hlength)
    simp only [fractionMicros, htake, hlength, Digits.value_padded]
    exact Nat.mul_one fraction
  have hsome : (Digits.padded 6 fraction).isEmpty = false := by
    cases hnil : Digits.padded 6 fraction with
    | nil => simp [hnil] at hlength
    | cons c cs => rfl
  simp only [readFraction?, List.cons_append, true_or, if_true, hspan, hsome, hmicros,
    Bool.false_eq_true, if_false]

/-- A time of day is read back from its text, with or without a fraction. -/
theorem readTime?_timeText {micros : Nat} (h : micros < dayLength) {rest : List Char}
    (hrest : Ends rest) : readTime? (timeText micros ++ rest) = some (micros, rest) := by
  have hday : micros < 86400000000 := h
  have hhours : micros / 1000000 / 3600 < 100 := by omega
  have hminutes : micros / 1000000 / 60 % 60 < 100 := by omega
  have hseconds : micros / 1000000 % 60 < 100 := by omega
  have hfraction : readFraction? ((if micros % 1000000 = 0 then []
      else '.' :: Digits.padded 6 (micros % 1000000)) ++ rest) =
        some (micros % 1000000, rest) := by
    by_cases hzero : micros % 1000000 = 0
    · rw [if_pos hzero, hzero]
      exact readFraction?_of_ends hrest
    · rw [if_neg hzero]
      exact readFraction?_padded (by omega) hrest
  have hclock : micros / 1000000 / 3600 < 24 ∧ micros / 1000000 / 60 % 60 < 60 := by omega
  have hsecond : micros / 1000000 % 60 < 60 := by omega
  simp only [readTime?, timeText, List.append_assoc, List.cons_append, readDigits?_two hhours,
    readDigits?_two hminutes, readDigits?_two hseconds, readChar?_cons, readSeconds?, hfraction,
    Option.bind_eq_bind, Option.bind_some, hsecond, hclock, and_self, if_true]
  congr 2
  omega

/-- An offset is read back from its hours and minutes. -/
theorem readOffset?_two {hours minutes : Nat} (hhours : hours < 24) (hminutes : minutes < 60)
    (negative : Bool) :
    readOffset? negative (two hours ++ ':' :: two minutes) =
      some (Digits.signed negative (hours * 60 + minutes : Nat)) := by
  have hnil := readDigits?_two (show minutes < 100 by omega) []
  rw [List.append_nil] at hnil
  simp only [readOffset?, readDigits?_two (show hours < 100 by omega), readChar?_cons,
    Option.bind_eq_bind, Option.bind_some, Option.getD_some, hnil, hhours, hminutes, and_self,
    if_true]

/-- A zone is read back from the text of its offset, in both styles of UTC. -/
theorem readZone?_offsetText (style : UtcStyle) {minutes : Int} (h : minutes.natAbs < 1440) :
    readZone? (offsetText style minutes) = some (some minutes) := by
  have hoffset := readOffset?_two (show minutes.natAbs / 60 < 24 by omega)
    (show minutes.natAbs % 60 < 60 by omega)
  have hmagnitude : minutes.natAbs / 60 * 60 + minutes.natAbs % 60 = minutes.natAbs := by omega
  unfold offsetText
  by_cases hletter : minutes = 0 ∧ style = .letter
  · rw [if_pos hletter, hletter.1]
    rfl
  · rw [if_neg hletter]
    by_cases hsign : minutes < 0
    · simp only [hsign, if_true, List.cons_append, readZone?, hoffset, hmagnitude, Option.map_some,
        Digits.signed]
      congr 2
      omega
    · simp only [hsign, if_false, List.cons_append, readZone?, hoffset, hmagnitude, Option.map_some,
        Digits.signed, Bool.false_eq_true]
      congr 2
      omega

/-! ## Reading a moment -/

/-- A moment that can be written is read back from its text: its date, its time of day and its
offset. -/
theorem read?_text (style : UtcStyle) {m : Moment} (h : m.Writable) :
    read? (m.text style) =
      some ⟨m.reading.date, m.reading.val % dayLength, m.offset⟩ := by
  have hday : m.reading.val / dayLength < calendarDays :=
    Nat.div_lt_of_lt_mul (Nat.mul_comm _ _ ▸ m.reading.isLt)
  have hdate := readDate?_dateText (Date.isValid_ofDay hday)
  have hmicros : m.reading.val % dayLength < dayLength := Nat.mod_lt _ (by decide)
  have htime {rest : List Char} (hrest : Ends rest) := readTime?_timeText hmicros hrest
  cases hoffset : m.offset with
  | none =>
    have hend : Ends [] := by
      intro c hc
      cases hc
    have hread := htime hend
    rw [List.append_nil] at hread
    simp only [read?, text, hoffset, String.toList_ofList, List.append_nil, Reading.date, hdate,
      Option.bind_eq_bind, Option.bind_some, isDateTimeSeparator, hread]
    rfl
  | some minutes =>
    have hend : Ends (offsetText style minutes) := by
      unfold offsetText
      split
      · simp [Ends, Digits.isDigit]
      · split <;> simp [Ends, Digits.isDigit]
    simp only [read?, text, hoffset, String.toList_ofList, List.append_assoc, List.cons_append,
      Reading.date, hdate, Option.bind_eq_bind, Option.bind_some, isDateTimeSeparator, htime hend,
      readZone?_offsetText style (h minutes hoffset)]
    rfl

end Stamp

/-- The moment that a text of a moment names is that moment. -/
theorem Moment.read?_text (style : UtcStyle) {m : Moment} (h : m.Writable) :
    Moment.read? (m.text style) = some m := by
  have hday : m.reading.val / dayLength < calendarDays :=
    Nat.div_lt_of_lt_mul (Nat.mul_comm _ _ ▸ m.reading.isLt)
  have hmicros : m.reading.date.toDay * dayLength + m.reading.val % dayLength = m.reading.val := by
    rw [Reading.date, Date.toDay_ofDay]
    exact Nat.div_add_mod' _ _
  have hreading : Reading.ofMicros? (m.reading.val : Int) = some m.reading := by
    have hlt := m.reading.isLt
    have hrange : 0 ≤ (m.reading.val : Int) ∧ (m.reading.val : Int) < calendarLength := by omega
    rw [Reading.ofMicros?, dif_pos hrange]
    rfl
  simp only [Moment.read?, Stamp.read?_text style h, Option.bind_some, Stamp.moment?,
    show m.reading.date.isValid = true from Date.isValid_ofDay hday, if_true, hmicros, hreading,
    Option.map_some]

/-! ## The offsets of stamps that are read -/

namespace Stamp

/-- An offset that was read is less than a day. -/
theorem natAbs_lt_of_readOffset? {negative : Bool} {cs : List Char} {minutes : Int}
    (h : readOffset? negative cs = some minutes) : minutes.natAbs < 1440 := by
  simp only [readOffset?, Option.bind_eq_bind, Option.bind_eq_some_iff,
    Option.ite_none_right_eq_some, Option.some.injEq] at h
  obtain ⟨⟨hours, rest⟩, -, ⟨m, rest'⟩, -, ⟨hhours, hminutes, -⟩, rfl⟩ := h
  cases negative <;> simp only [Digits.signed] <;> omega

theorem natAbs_lt_of_readZone? {cs : List Char} {offset : Option Int}
    (h : readZone? cs = some offset) {minutes : Int} (hminutes : offset = some minutes) :
    minutes.natAbs < 1440 := by
  subst hminutes
  unfold readZone? at h
  split at h
  · cases h
  · cases h
    decide
  · cases h
    decide
  · exact natAbs_lt_of_readOffset? (by simpa using h)
  · exact natAbs_lt_of_readOffset? (by simpa using h)
  · exact natAbs_lt_of_readOffset? (by simpa using h)
  · cases h

/-- The offset of a stamp that was read is less than a day. -/
theorem offset_of_read? {s : String} {stamp : Stamp} (h : read? s = some stamp) {minutes : Int}
    (hminutes : stamp.offset = some minutes) : minutes.natAbs < 1440 := by
  simp only [read?, Option.bind_eq_bind, Option.bind_eq_some_iff] at h
  obtain ⟨⟨date, rest⟩, -, hrest⟩ := h
  cases rest with
  | nil =>
    cases hrest
    cases hminutes
  | cons c rest =>
    simp only [Option.ite_none_right_eq_some, Option.bind_eq_some_iff, Option.some.injEq] at hrest
    obtain ⟨-, ⟨micros, rest'⟩, -, offset, hzone, rfl⟩ := hrest
    exact natAbs_lt_of_readZone? hzone hminutes

/-- A moment that a text names can be written. -/
theorem writable_of_moment? {s : String} {stamp : Stamp} {m : Moment} (hread : read? s = some stamp)
    (h : stamp.moment? = some m) : m.Writable := by
  simp only [moment?, Option.ite_none_right_eq_some, Option.map_eq_some_iff] at h
  obtain ⟨-, reading, -, rfl⟩ := h
  exact fun minutes hminutes => offset_of_read? hread hminutes

end Stamp

end MapEvents
