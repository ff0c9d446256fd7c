import Mathlib.Algebra.BigOperators.Group.List.Basic
import Mathlib.Algebra.Ring.Int.Defs
import MapEvents.Calendar.Zone
import MapEvents.Proofs.Fields
import MapEvents.Proofs.Trigger.Daily
/-!
# Spans of whole amounts

Whole amounts of units make a span of exactly as many microseconds as they have together; nothing is
rounded. A clock that is moved by such spans, one after another, therefore shows in the end the
reading at the start plus the sum of all amounts, whatever months and leap years lie between. Only
the sum counts: neither the order of the spans nor how they are divided into calls makes a
difference, as long as no move leaves the years of the calendar. The zone of the clock stays what it
was, and a call that is refused leaves the clock alone.

The sum is one of wall-clock readings. The instant moves by the same amount exactly if the zone has
the same offset in the end as at the start, as a steady zone always has. Where the clocks of the
zone go forward meanwhile, a day of 24 hours takes 23.
-/

namespace MapEvents

/-- The list of units leaves none out. -/
theorem TimeUnit.mem_all (unit : TimeUnit) : unit ∈ all := by
  cases unit <;> decide

namespace Span

/-- The number of units that a value gives, if it is a whole one. -/
def wholeAmount? : Value → Option Int
  | .int n => some n
  | .bool b => some (if b then 1 else 0)
  | _ => none

/-- Amounts of units, all of them whole. -/
structure Whole (amounts : Data) : Prop where
  unit : ∀ a ∈ amounts, ∃ unit : TimeUnit, unit.name = a.1
  amount : ∀ a ∈ amounts, ∃ n, wholeAmount? a.2 = some n

instance (amounts : Data) : Decidable (Whole amounts) :=
  decidable_of_iff (∀ a ∈ amounts,
      (∃ unit ∈ TimeUnit.all, unit.name = a.1) ∧ (wholeAmount? a.2).isSome = true)
    ⟨fun h => ⟨fun a ha => (h a ha).1.imp fun _ => And.right,
      fun a ha => Option.isSome_iff_exists.mp (h a ha).2⟩,
    fun h a ha => ⟨(h.unit a ha).imp fun unit hunit => ⟨TimeUnit.mem_all unit, hunit⟩,
      Option.isSome_iff_exists.mpr (h.amount a ha)⟩⟩

/-- How many units of this kind are given; none if the unit is not named. -/
def amountOf (amounts : Data) (unit : TimeUnit) : Int :=
  ((Fields.find? unit.name amounts).bind wholeAmount?).getD 0

/-- Microseconds of the given amounts of some units. -/
def lengthIn (amounts : Data) (units : List TimeUnit) : Int :=
  (units.map fun unit => amountOf amounts unit * unit.micros).sum

/-- Microseconds of all given amounts together. -/
def length (amounts : Data) : Int := lengthIn amounts TimeUnit.all

/-! ## The length of a span -/

/-- A whole amount is added without rounding. -/
theorem add_of_wholeAmount? {v : Value} {n : Int} (h : wholeAmount? v = some n) (t : Total)
    (unit : TimeUnit) : t.add unit v = .ok { t with whole := t.whole + n * unit.micros } := by
  cases v with
  | int m =>
    have hm : m = n := by simpa [wholeAmount?] using h
    rw [Total.add, hm]
  | bool b =>
    have hb : (if b then 1 else 0) = n := by simpa [wholeAmount?] using h
    rw [Total.add, hb]
  | null => cases h
  | float x => cases h
  | str s => cases h
  | list items => cases h
  | obj fields => cases h

/-- Of whole amounts only the whole part of the total grows, by their length. -/
theorem addUnits_of_whole {amounts : Data} (h : Whole amounts) (units : List TimeUnit) (t : Total) :
    addUnits amounts units t = .ok { t with whole := t.whole + lengthIn amounts units } := by
  induction units generalizing t with
  | nil => simp [addUnits, lengthIn]
  | cons unit rest ih =>
    have hlength : lengthIn amounts (unit :: rest) =
        amountOf amounts unit * unit.micros + lengthIn amounts rest := by
      simp [lengthIn]
    rw [addUnits, hlength]
    cases hfound : Fields.find? unit.name amounts with
    | none =>
      have hnone : amountOf amounts unit = 0 := by simp [amountOf, hfound]
      simp only [ih, hnone, Int.zero_mul, Int.zero_add]
    | some v =>
      obtain ⟨n, hn⟩ := h.amount (unit.name, v) (Fields.mem_of_find? hfound)
      have hamount : amountOf amounts unit = n := by simp [amountOf, hfound, hn]
      simp only [add_of_wholeAmount? hn, ih, hamount, Int.add_assoc]

/-- A multiple of the divisor is divided without rounding. -/
theorem roundHalfEven_mul (a : Nat) {d : Nat} (hd : 0 < d) :
    Double.roundHalfEven (a * d) d = a := by
  have hmod : a * d % d = 0 := Nat.mul_mod_left a d
  have hdiv : a * d / d = a := Nat.mul_div_cancel a hd
  simp only [Double.roundHalfEven, hmod, hdiv, Nat.mul_zero, hd, if_true]

/-- A total without fractions is not rounded. -/
theorem rounded_of_whole (n : Int) : (Total.mk n .zero).rounded = n := by
  have hpos : 0 < Double.unitsPerOne := by
    unfold Double.unitsPerOne
    generalize 1074 = k
    exact Nat.two_pow_pos k
  have hzero : Double.zero.units? = some 0 := by decide +kernel
  have hunits : n * Double.unitsPerOne + (0 : Int) = n * Double.unitsPerOne := Int.add_zero _
  have habs : (n * (Double.unitsPerOne : Int)).natAbs = n.natAbs * Double.unitsPerOne := by
    rw [Int.natAbs_mul, Int.natAbs_natCast]
  have hsign : n * (Double.unitsPerOne : Int) < 0 ↔ n < 0 := by
    rw [← Int.not_le, ← Int.not_le, Int.mul_nonneg_iff_of_pos_right (by exact_mod_cast hpos)]
  simp only [Total.rounded, hzero, Option.getD_some, hunits, habs, roundHalfEven_mul _ hpos, hsign]
  split <;> omega

/-- Whole amounts add up exactly. -/
theorem micros_of_whole {amounts : Data} (h : Whole amounts) :
    micros amounts = .ok (length amounts) := by
  have hnames : (amounts.all fun a => TimeUnit.all.any (·.name = a.1)) = true := by
    rw [List.all_eq_true]
    intro a ha
    obtain ⟨unit, hunit⟩ := h.unit a ha
    exact List.any_eq_true.mpr ⟨unit, TimeUnit.mem_all unit, by simpa using hunit⟩
  rw [micros, if_pos hnames, addUnits_of_whole h]
  simp only [Int.zero_add, rounded_of_whole, length]

/-! ## Several spans as one -/

/-- Of every unit, the one span has as many as the others have together. -/
structure Joins (spans : List Data) (joined : Data) : Prop where
  whole : Whole joined
  amount : ∀ unit, amountOf joined unit = (spans.map fun amounts => amountOf amounts unit).sum

/-- The amounts of several spans, added up unit by unit. -/
def joint (spans : List Data) : Data :=
  TimeUnit.all.map fun unit =>
    (unit.name, .int (spans.map fun amounts => amountOf amounts unit).sum)

/-- The amounts summed unit by unit are as many of every unit as the spans have. -/
theorem joins_joint (spans : List Data) : Joins spans (joint spans) := by
  have hmem : ∀ a ∈ joint spans, ∃ unit : TimeUnit, unit.name = a.1 ∧ ∃ n, a.2 = .int n := by
    intro a ha
    obtain ⟨unit, -, rfl⟩ := List.mem_map.mp ha
    exact ⟨unit, rfl, _, rfl⟩
  refine ⟨⟨fun a ha => ?_, fun a ha => ?_⟩, fun unit => ?_⟩
  · obtain ⟨unit, hunit, -⟩ := hmem a ha
    exact ⟨unit, hunit⟩
  · obtain ⟨-, -, n, hn⟩ := hmem a ha
    exact ⟨n, by rw [hn]; rfl⟩
  · cases unit <;> rfl

/-- The lengths of several spans are that of the joined one. -/
theorem length_of_joins {spans : List Data} {joined : Data} (h : Joins spans joined) :
    length joined = (spans.map length).sum := by
  -- Both sides add up the same amounts, by units and by spans.
  have hsum : ∀ (others : List Data) (units : List TimeUnit),
      (units.map fun unit =>
        (others.map fun amounts => amountOf amounts unit).sum * (unit.micros : Int)).sum =
        (others.map fun amounts => lengthIn amounts units).sum := by
    intro others units
    induction others with
    | nil => simp
    | cons first rest ih =>
      simp only [List.map_cons, List.sum_cons, Int.add_mul, List.sum_map_add, ih]
      rfl
  have hlength : length joined = lengthIn joined TimeUnit.all := rfl
  rw [hlength, lengthIn]
  simp only [h.amount]
  exact hsum spans TimeUnit.all

end Span

/-- A zone of a fixed offset is steady. -/
theorem Zone.steady_fixed (minutes : Int) : (fixed minutes).Steady :=
  ⟨offsetMicros minutes, fun _ _ => rfl⟩

namespace ZonedClock

/-! ## Clocks that are moved -/

/-- Moves the clock by one span after another, up to the first that it refuses. -/
def advanceAll (c : ZonedClock) : (spans : List Data) → Except Fault ZonedClock
  | [] => .ok c
  | amounts :: rest =>
    match c.advance amounts with
    | .ok d => d.advanceAll rest
    | .error fault => .error fault

/-- The clock shows the other one's reading, moved by a number of microseconds, in the same zone. -/
structure MovedBy (c : ZonedClock) (micros : Int) (d : ZonedClock) : Prop where
  zone : d.zone = c.zone
  reading : (d.reading.val : Int) = c.reading.val + micros

variable {c d d' : ZonedClock} {n : Int}

/-- Clocks that were moved by the same amount differ at most in which of two equal readings they
show. -/
theorem MovedBy.unique (h : c.MovedBy n d) (h' : c.MovedBy n d') (hagain : d'.again = d.again) :
    d' = d := by
  have hzone : d'.zone = d.zone := h'.zone.trans h.zone.symm
  have hval : (d'.reading.val : Int) = d.reading.val := h'.reading.trans h.reading.symm
  have hreading : d'.reading = d.reading := Fin.ext (by exact_mod_cast hval)
  cases d
  cases d'
  simp only [ZonedClock.mk.injEq]
  exact ⟨hreading, hagain, hzone⟩

/-- The instant moves with the reading, less what the zone has gained on UTC. -/
theorem MovedBy.instant (h : c.MovedBy n d) :
    d.instant = c.instant + n - (d.offset - c.offset) := by
  have hreading := h.reading
  simp only [ZonedClock.instant]
  omega

/-- A move gives the first reading at its place, whichever of two the clock showed before. -/
theorem move_eq_ok_iff : c.move n = .ok d ↔ c.MovedBy n d ∧ d.again = false := by
  constructor
  · intro h
    unfold move at h
    split at h
    · next r hr =>
      obtain rfl : { c with reading := r, again := false } = d := Except.ok.inj h
      exact ⟨⟨rfl, Reading.val_of_ofMicros hr⟩, rfl⟩
    · cases h
  · rintro ⟨h, hagain⟩
    have hlt := d.reading.isLt
    have hmem : 0 ≤ c.reading.val + n ∧ c.reading.val + n < calendarLength := by
      have hreading := h.reading
      omega
    obtain ⟨r, hr, hval⟩ := Reading.ofMicros_of_mem hmem
    have hmove : c.move n = .ok { c with reading := r, again := false } := by rw [move, hr]
    have hmoved : c.MovedBy n { c with reading := r, again := false } := ⟨rfl, hval⟩
    rw [hmove, hmoved.unique h hagain]

/-- A span of whole amounts moves the clock by its length. -/
theorem advance_eq_ok_iff {amounts : Data} (h : Span.Whole amounts) :
    c.advance amounts = .ok d ↔ c.MovedBy (Span.length amounts) d ∧ d.again = false := by
  rw [advance, Span.micros_of_whole h]
  exact move_eq_ok_iff

/-- A clock takes several spans if it takes the first and then the others. -/
theorem advanceAll_cons_eq_ok_iff {amounts : Data} {rest : List Data} :
    c.advanceAll (amounts :: rest) = .ok d ↔
      ∃ u, c.advance amounts = .ok u ∧ u.advanceAll rest = .ok d := by
  rw [advanceAll]
  cases c.advance amounts <;> simp

/-- Spans of whole amounts move the clock by their lengths together. -/
theorem movedBy_of_advanceAll {spans : List Data} (hspans : ∀ amounts ∈ spans, Span.Whole amounts)
    (h : c.advanceAll spans = .ok d) : c.MovedBy (spans.map Span.length).sum d := by
  induction spans generalizing c with
  | nil =>
    have heq : c = d := by simpa [advanceAll] using h
    exact ⟨by rw [heq], by simp [heq]⟩
  | cons amounts rest ih =>
    obtain ⟨u, hfirst, h⟩ := advanceAll_cons_eq_ok_iff.mp h
    have hmoved := ((advance_eq_ok_iff (hspans amounts List.mem_cons_self)).mp hfirst).1
    have hrest := ih (fun a ha => hspans a (List.mem_cons_of_mem _ ha)) h
    refine ⟨hrest.zone.trans hmoved.zone, ?_⟩
    have hstart := hmoved.reading
    have hend := hrest.reading
    rw [List.map_cons, List.sum_cons]
    omega

/-- Only a clock that was not moved at all can still show the second of two equal readings. -/
theorem again_of_advanceAll {spans : List Data} (hspans : ∀ amounts ∈ spans, Span.Whole amounts)
    (h : c.advanceAll spans = .ok d) : d.again = (c.again && spans.isEmpty) := by
  induction spans generalizing c with
  | nil =>
    have heq : c = d := by simpa [advanceAll] using h
    simp [heq]
  | cons amounts rest ih =>
    obtain ⟨u, hfirst, h⟩ := advanceAll_cons_eq_ok_iff.mp h
    have hagain := ((advance_eq_ok_iff (hspans amounts List.mem_cons_self)).mp hfirst).2
    rw [ih (fun a ha => hspans a (List.mem_cons_of_mem _ ha)) h, hagain]
    simp

/-- A clock takes a span of whole amounts exactly if that leaves it within the calendar. -/
theorem exists_advance_iff {amounts : Data} (h : Span.Whole amounts) :
    (∃ d, c.advance amounts = .ok d) ↔
      0 ≤ c.reading.val + Span.length amounts ∧
        c.reading.val + Span.length amounts < calendarLength := by
  constructor
  · intro hadvance
    obtain ⟨d, hd⟩ := hadvance
    have hreading := ((advance_eq_ok_iff h).mp hd).1.reading
    have hlt := d.reading.isLt
    constructor <;> omega
  · intro hmem
    obtain ⟨r, -, hval⟩ := Reading.ofMicros_of_mem hmem
    exact ⟨{ c with reading := r, again := false }, (advance_eq_ok_iff h).mpr ⟨⟨rfl, hval⟩, rfl⟩⟩

/-! ## Calls of a clock -/

/-- The clock after one call after another, whether it refuses them or not. -/
def after (c : ZonedClock) (calls : List Call) : ZonedClock :=
  calls.foldl (fun c call => (c.answer call).toOption.getD c) c

/-- Spans that the clock takes one after another are calls that it does not refuse. -/
theorem after_of_advanceAll {spans : List Data} (h : c.advanceAll spans = .ok d) :
    c.after (spans.map .advance) = d := by
  induction spans generalizing c with
  | nil => exact Except.ok.inj h
  | cons amounts rest ih =>
    obtain ⟨u, hfirst, h⟩ := advanceAll_cons_eq_ok_iff.mp h
    have hrest := ih h
    simpa [after, answer, hfirst, Except.toOption] using hrest

/-- A refused call leaves the clock as it was. -/
theorem after_of_fault {calls : List Call} {call : Call} {fault : Fault}
    (h : (c.after calls).answer call = .error fault) :
    c.after (calls ++ [call]) = c.after calls := by
  have happend : c.after (calls ++ [call]) =
      ((c.after calls).answer call).toOption.getD (c.after calls) := by
    simp [after, List.foldl_append]
  rw [happend, h]
  rfl

/-- Setting a clock is refused exactly for lack of a zone. -/
theorem answer_set_eq_error_iff {m : ZonedMoment} :
    (∃ fault, c.answer (.set m) = .error fault) ↔ m.zone = none := by
  cases hzone : m.zone <;> simp [answer, ofMoment, hzone]

/-- An accepted call leaves the clock in its zone, or sets it to a moment of another. -/
theorem zone_of_answer {call : Call} (h : c.answer call = .ok d) :
    d.zone = c.zone ∨ ∃ m, call = .set m ∧ m.zone = some d.zone := by
  cases call with
  | set m =>
    cases hzone : m.zone with
    | none => simp [answer, ofMoment, hzone] at h
    | some zone =>
      obtain rfl : ⟨m.reading, m.again, zone⟩ = d := by simpa [answer, ofMoment, hzone] using h
      exact .inr ⟨m, rfl, hzone⟩
  | advance amounts =>
    have hadvance : c.advance amounts = .ok d := h
    unfold advance at hadvance
    split at hadvance
    · exact .inl (move_eq_ok_iff.mp hadvance).1.zone
    · cases hadvance

/-- After any calls the clock is in the zone of the start or in one to which a call has set it. -/
theorem zone_after (calls : List Call) :
    (c.after calls).zone = c.zone ∨
      ∃ m, Call.set m ∈ calls ∧ m.zone = some (c.after calls).zone := by
  induction calls generalizing c with
  | nil => exact .inl rfl
  | cons call rest ih =>
    have hafter : c.after (call :: rest) = ((c.answer call).toOption.getD c).after rest := rfl
    rw [hafter]
    obtain hsame | ⟨m, hm, hzone⟩ := @ih ((c.answer call).toOption.getD c)
    · rw [hsame]
      cases hanswer : c.answer call with
      | error fault => exact .inl rfl
      | ok d =>
        obtain hkept | ⟨m, rfl, hzone⟩ := zone_of_answer hanswer
        · exact .inl hkept
        · exact .inr ⟨m, List.mem_cons_self, hzone⟩
    · exact .inr ⟨m, List.mem_cons_of_mem _ hm, hzone⟩

/-! ## Sums of spans -/

/-- Spans of whole amounts that a clock takes one after another move its reading by the sum of all
their amounts, in its zone. The instant is moved by that sum too, less what the zone has gained on
UTC meanwhile: exactly by the sum if the offset is in the end what it was at the start, as it always
is in a steady zone. In every other order in which the clock takes the spans it comes to the same
time, and it takes the amounts summed unit by unit as one span, with the same result; only the
second of two equal readings is lost to an empty sum. It refuses such a span only where that would
leave the calendar. A call that is refused leaves the clock as it was, only a moment without zone is
refused as a setting, and after any calls the clock has the zone it started in or one to which it
was set. -/
theorem whole_spans_add_up (c : ZonedClock) :
    (∀ spans d, (∀ amounts ∈ spans, Span.Whole amounts) → c.advanceAll spans = .ok d →
      c.after (spans.map .advance) = d ∧ d.zone = c.zone ∧
        (d.reading.val : Int) = c.reading.val + (spans.map Span.length).sum ∧
        d.instant = c.instant + (spans.map Span.length).sum - (d.offset - c.offset) ∧
        (c.zone.Steady →
          d.instant = c.instant + (spans.map Span.length).sum ∧ d.offset = c.offset) ∧
        (∀ others e, others.Perm spans → c.advanceAll others = .ok e → e = d) ∧
        (c.again = false ∨ spans ≠ [] →
          (∀ joined, Span.Joins spans joined → c.advance joined = .ok d) ∧
            c.advance (Span.joint spans) = .ok d)) ∧
    (∀ amounts, Span.Whole amounts →
      ((∃ d, c.advance amounts = .ok d) ↔
        0 ≤ c.reading.val + Span.length amounts ∧
          c.reading.val + Span.length amounts < calendarLength)) ∧
    (∀ calls call fault, (c.after calls).answer call = .error fault →
      c.after (calls ++ [call]) = c.after calls) ∧
    (∀ m, (∃ fault, c.answer (.set m) = .error fault) ↔ m.zone = none) ∧
    ∀ calls, ∃ zone, (c.after calls).now.zone = some zone ∧
      (zone = c.zone ∨ ∃ m, Call.set m ∈ calls ∧ m.zone = some zone) := by
  refine ⟨?_, fun amounts h => exists_advance_iff h, fun calls call fault h => after_of_fault h,
    fun m => answer_set_eq_error_iff, fun calls => ⟨_, rfl, zone_after calls⟩⟩
  intro spans d hspans h
  have hmoved := movedBy_of_advanceAll hspans h
  have hagain := again_of_advanceAll hspans h
  have hsteady : c.zone.Steady →
      d.instant = c.instant + (spans.map Span.length).sum ∧ d.offset = c.offset := by
    rintro ⟨ahead, hahead⟩
    have hoffset : d.offset = c.offset := by simp only [offset, hmoved.zone, hahead]
    refine ⟨?_, hoffset⟩
    have hinstant := hmoved.instant
    omega
  have hjoins : c.again = false ∨ spans ≠ [] →
      ∀ joined, Span.Joins spans joined → c.advance joined = .ok d := by
    intro hfirst joined hjoined
    rw [advance_eq_ok_iff hjoined.whole, Span.length_of_joins hjoined]
    refine ⟨hmoved, ?_⟩
    rw [hagain]
    rcases hfirst with hfirst | hfirst <;> simp [hfirst]
  refine ⟨after_of_advanceAll h, hmoved.zone, hmoved.reading, hmoved.instant, hsteady, ?_,
    fun hfirst => ⟨hjoins hfirst, hjoins hfirst _ (Span.joins_joint spans)⟩⟩
  intro others e hperm hothers
  have hwhole : ∀ amounts ∈ others, Span.Whole amounts :=
    fun amounts ha => hspans amounts (hperm.mem_iff.mp ha)
  have hother := movedBy_of_advanceAll hwhole hothers
  have hsum : (others.map Span.length).sum = (spans.map Span.length).sum := (hperm.map _).sum_eq
  rw [hsum] at hother
  have hempty : others.isEmpty = spans.isEmpty := by
    rw [Bool.eq_iff_iff, List.isEmpty_iff, List.isEmpty_iff]
    exact ⟨fun h => List.perm_nil.mp (h ▸ hperm.symm), fun h => List.perm_nil.mp (h ▸ hperm)⟩
  refine hmoved.unique hother ?_
  rw [again_of_advanceAll hwhole hothers, hagain, hempty]

/-- Nine weeks less four days, in spans of different units. -/
def untilMarch : List Data :=
  [[("weeks", .int 9)], [("days", .int (-4))], [("hours", .int (-12)), ("minutes", .int 720)]]

/-- Nine weeks less four days lead from the first day of 2025 to the first of March, by the clock
and in UTC. -/
theorem untilMarch_adds_up :
    ∃ d, Clock.start.zoned.advanceAll untilMarch = .ok d ∧
      d.reading.date = ⟨2025, 3, 1⟩ ∧
      d.instant = Clock.start.zoned.instant + (untilMarch.map Span.length).sum ∧
      d.offset = Clock.start.zoned.offset := by
  have hwhole : ∀ amounts ∈ untilMarch, Span.Whole amounts := by decide
  cases hend : Clock.start.zoned.advanceAll untilMarch with
  | error fault =>
    have hok : (Clock.start.zoned.advanceAll untilMarch).isOk = true := by decide +kernel
    rw [hend] at hok
    cases hok
  | ok d =>
    have hdate : (Clock.start.zoned.advanceAll untilMarch).toOption.map (·.reading.date) =
        some ⟨2025, 3, 1⟩ := by decide +kernel
    rw [hend] at hdate
    obtain ⟨-, -, -, -, hsteady, -⟩ :=
      (whole_spans_add_up Clock.start.zoned).1 untilMarch d hwhole hend
    obtain ⟨hinstant, hoffset⟩ := hsteady (Zone.steady_fixed 0)
    exact ⟨d, rfl, Option.some.inj hdate, hinstant, hoffset⟩

/-- Eastern time in the Americas as in 2025. On 9 March its clocks go from two to three in the
morning, and on 2 November from two back to one. A reading that is skipped counts as one of winter,
unless it is said to come again. -/
def eastern : Zone where
  ahead r again :=
    let springs := if again then 63877082400000000 else 63877086000000000
    let falls := if again then 63897642000000000 else 63897645600000000
    offsetMicros (if springs ≤ r.val ∧ r.val < falls then -240 else -300)

/-- Noon of 8 March 2025 in the east. -/
def easternNoon : ZonedClock := ⟨⟨63877032000000000, by decide⟩, false, eastern⟩

/-- Noon of the day after. -/
def easternNextNoon : ZonedClock := ⟨⟨63877118400000000, by decide⟩, false, eastern⟩

/-- Over the night in which the clocks go forward, 24 hours on the clock are 23 in fact, and the
offset is another one than before. -/
theorem a_day_may_take_23_hours :
    Span.Whole [("hours", .int 24)] ∧
      Span.length [("hours", .int 24)] = 24 * TimeUnit.hours.micros ∧
      easternNoon.advanceAll [[("hours", .int 24)]] = .ok easternNextNoon ∧
      easternNextNoon.instant = easternNoon.instant + 23 * TimeUnit.hours.micros ∧
      easternNoon.offset = offsetMicros (-300) ∧ easternNextNoon.offset = offsetMicros (-240) := by
  have hwhole : Span.Whole [("hours", .int 24)] := by decide
  have hadvance : easternNoon.advance [("hours", .int 24)] = .ok easternNextNoon :=
    (advance_eq_ok_iff hwhole).mpr ⟨⟨rfl, by decide +kernel⟩, rfl⟩
  refine ⟨hwhole, by decide +kernel, ?_, by decide +kernel, by decide +kernel, by decide +kernel⟩
  simp only [advanceAll, hadvance]

end ZonedClock

namespace Clock

/-! ## Clocks of one offset -/

/-- A clock of one offset is moved as a clock in the zone of that offset. -/
theorem zoned_advance (c : Clock) (amounts : Data) :
    c.zoned.advance amounts = (c.advance amounts).map zoned := by
  unfold advance ZonedClock.advance
  cases Span.micros amounts with
  | error fault => rfl
  | ok n =>
    have hreading : (c.zoned.reading.val : Int) + n = c.reading.val + n := rfl
    simp only [move, ZonedClock.move, hreading]
    cases Reading.ofMicros (c.reading.val + n) <;> rfl

/-- A clock of one offset is set as a clock in the zone of that offset. -/
theorem zoned_ofMoment (m : Moment) :
    ZonedClock.ofMoment m.zoned = (ofMoment m).map zoned := by
  cases hoffset : m.offset <;> simp [ZonedClock.ofMoment, ofMoment, Moment.zoned, hoffset] <;> rfl

/-- In the zone of its offset a clock tells the same instant. -/
theorem zoned_instant (c : Clock) : c.zoned.instant = c.now.instant := rfl

/-- A span of whole amounts moves the instant of a clock of one offset by its length. -/
theorem instant_of_advance {c d : Clock} {amounts : Data} (hwhole : Span.Whole amounts)
    (h : c.advance amounts = .ok d) : d.now.instant = c.now.instant + Span.length amounts := by
  have hzoned : c.zoned.advance amounts = .ok d.zoned := by rw [zoned_advance, h]; rfl
  have hmoved := ((ZonedClock.advance_eq_ok_iff hwhole).mp hzoned).1
  have hreading : (d.reading.val : Int) = c.reading.val + Span.length amounts := hmoved.reading
  have hoffset : d.zoned.offset = c.zoned.offset := by
    simp only [ZonedClock.offset, hmoved.zone]
    rfl
  rw [← zoned_instant, ← zoned_instant, hmoved.instant, hoffset]
  omega

end Clock

end MapEvents
