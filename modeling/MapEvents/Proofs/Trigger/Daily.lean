import MapEvents.Proofs.Calendar.Days
import MapEvents.Trigger.Repeat
/-!
# The days of stamps

A daily policy compares the days of an event's earlier entries with the day that the clock shows. An
entry that was read keeps the zone it was written in, and is moved to the zone of the clock first.
At the two ends of the calendar there may be no day to move it to. The policy then gives a fault,
unless it came to an entry of today before; every other policy always decides.

`Moment.dayAt` numbers the days of a zone beyond the calendar too. Where a moment has a place in the
zone, its day is the one that the policy compares.
-/

namespace MapEvents

/-! ## Moving a stamp to another zone -/

namespace Reading

/-- Every number of microseconds in the calendar has a reading. -/
theorem ofMicros_of_mem {n : Int} (h : 0 ≤ n ∧ n < calendarLength) :
    ∃ r : Reading, ofMicros n = .ok r ∧ (r.val : Int) = n := by
  refine ⟨⟨n.toNat, by omega⟩, ?_, Int.toNat_of_nonneg h.1⟩
  simp only [ofMicros, ofMicros?, h, and_self, dite_true]

theorem ofMicros_of_not_mem {n : Int} (h : ¬(0 ≤ n ∧ n < calendarLength)) :
    ofMicros n = .error .timeOutOfRange := by
  simp only [ofMicros, ofMicros?, h, dite_false]

theorem val_of_ofMicros {n : Int} {r : Reading} (h : ofMicros n = .ok r) : (r.val : Int) = n := by
  by_cases hmem : 0 ≤ n ∧ n < calendarLength
  · obtain ⟨r', hr', hval⟩ := ofMicros_of_mem hmem
    obtain rfl : r = r' := Except.ok.inj (h.symm.trans hr')
    exact hval
  · rw [ofMicros_of_not_mem hmem] at h
    cases h

end Reading

namespace Moment

/-- The moment has a place in every zone with this offset: its own zone is known or can be looked
up, and neither in UTC nor there does it leave the calendar. -/
structure Placeable (m : Moment) (offset : Int) : Prop where
  zone : m.offset = none → dayLength ≤ m.reading.val
  utc : 0 ≤ m.instant ∧ m.instant < calendarLength
  there : 0 ≤ m.instant + offsetMicros offset ∧ m.instant + offsetMicros offset < calendarLength

/-- A moment that has a place in the other zone shows the same instant there. -/
theorem Placeable.readingAt {m : Moment} {offset : Int} (h : m.Placeable offset) :
    ∃ r, m.readingAt offset = .ok r ∧ (r.val : Int) = m.instant + offsetMicros offset := by
  obtain ⟨utc, hutc, hinstant⟩ := Reading.ofMicros_of_mem h.utc
  obtain ⟨r, hr, hval⟩ := Reading.ofMicros_of_mem h.there
  have hzone : ¬(m.offset = none ∧ m.reading.val < dayLength) :=
    fun hnone => absurd (h.zone hnone.1) (Nat.not_le.mpr hnone.2)
  refine ⟨r, ?_, hval⟩
  rw [Moment.readingAt, if_neg hzone, hutc]
  show Reading.ofMicros (utc.val + offsetMicros offset) = .ok r
  rw [hinstant, hr]

/-- A moment without a place at an offset cannot be read there. -/
theorem exists_fault_of_not_placeable {m : Moment} {offset : Int} (h : ¬m.Placeable offset) :
    ∃ fault, m.readingAt offset = .error fault := by
  unfold Moment.readingAt
  split
  · exact ⟨_, rfl⟩
  · next hzone =>
    by_cases hutc : 0 ≤ m.instant ∧ m.instant < calendarLength
    · obtain ⟨utc, hutc', hinstant⟩ := Reading.ofMicros_of_mem hutc
      have hthere : ¬(0 ≤ m.instant + offsetMicros offset ∧
          m.instant + offsetMicros offset < calendarLength) := by
        intro hthere
        refine h ⟨fun hnone => ?_, hutc, hthere⟩
        exact Nat.not_lt.mp fun hlt => hzone ⟨hnone, hlt⟩
      rw [← hinstant] at hthere
      rw [hutc']
      exact ⟨_, Reading.ofMicros_of_not_mem hthere⟩
    · rw [Reading.ofMicros_of_not_mem hutc]
      exact ⟨_, rfl⟩

/-- A reading at another offset is the instant, moved by that offset. -/
theorem val_of_readingAt {m : Moment} {offset : Int} {r : Reading}
    (h : m.readingAt offset = .ok r) : (r.val : Int) = m.instant + offsetMicros offset := by
  by_cases hplace : m.Placeable offset
  · obtain ⟨r', hr', hval⟩ := hplace.readingAt
    obtain rfl : r = r' := Except.ok.inj (h.symm.trans hr')
    exact hval
  · obtain ⟨fault, hfault⟩ := exists_fault_of_not_placeable hplace
    exact nomatch h.symm.trans hfault

/-- Number of the day on which the moment falls in a zone of this offset. -/
def dayAt (m : Moment) (offset : Int) : Int := (m.instant + offsetMicros offset) / dayLength

/-- At one offset, a later instant lies on no earlier day. -/
theorem dayAt_le_dayAt {m n : Moment} (h : m.instant ≤ n.instant) (offset : Int) :
    m.dayAt offset ≤ n.dayAt offset :=
  Int.ediv_le_ediv (by decide) (by omega)

end Moment

/-- Readings of one date are readings of one day. -/
theorem Reading.date_eq_iff {r s : Reading} :
    r.date = s.date ↔ r.val / dayLength = s.val / dayLength := by
  refine ⟨fun h => ?_, fun h => congrArg Date.ofDay h⟩
  have hday : r.date.toDay = s.date.toDay := congrArg Date.toDay h
  rwa [Reading.date, Reading.date, Date.toDay_ofDay, Date.toDay_ofDay] at hday

/-- Moments that have a place in a zone fall on one day there exactly if they have one date
there. -/
theorem Moment.dayAt_eq_iff {m n : Moment} {offset : Int} {r s : Reading}
    (hm : m.readingAt offset = .ok r) (hn : n.readingAt offset = .ok s) :
    m.dayAt offset = n.dayAt offset ↔ r.date = s.date := by
  rw [dayAt, dayAt, ← val_of_readingAt hm, ← val_of_readingAt hn, Reading.date_eq_iff]
  omega

/-- Number of the day that the clock shows. -/
def Clock.day (c : Clock) : Int := c.reading.val / dayLength

/-- What a clock shows lies on its own day. -/
theorem Clock.dayAt_now (c : Clock) : c.now.dayAt c.offset = c.day := by
  simp [Moment.dayAt, Moment.instant, Clock.now, Clock.day]

/-- A later reading lies on no earlier day. -/
theorem Clock.day_le_day {c d : Clock} (h : c.reading ≤ d.reading) : c.day ≤ d.day :=
  Int.ediv_le_ediv (by decide) (by exact_mod_cast h)

/-- A clock that is moved stays in its zone. -/
theorem Clock.eq_of_move {c d : Clock} {micros : Int} (h : c.move micros = .ok d) :
    d.offset = c.offset ∧ (d.reading.val : Int) = c.reading.val + micros := by
  unfold Clock.move at h
  split at h
  · next r hr =>
    obtain rfl : { c with reading := r } = d := Except.ok.inj h
    exact ⟨rfl, Reading.val_of_ofMicros hr⟩
  · cases h

namespace RepeatPolicy

/-- Whether the clock can tell the day of a stamp: one that the clock gave itself, or one that has a
place in its zone. -/
def Tells (clock : Clock) (isRecent : Bool) (stamp : Moment) : Prop :=
  isRecent = true ∨ stamp.Placeable clock.offset

/-- The clock can tell the day of a stamp exactly if the stamp has a local reading. -/
theorem tells_iff {clock : Clock} {isRecent : Bool} {stamp : Moment} :
    Tells clock isRecent stamp ↔ ∃ r, localReading clock isRecent stamp = .ok r := by
  unfold Tells localReading
  cases isRecent with
  | true => simp
  | false =>
    constructor
    · rintro (hrecent | hplace)
      · cases hrecent
      · obtain ⟨r, hr, -⟩ := hplace.readingAt
        exact ⟨r, hr⟩
    · rintro ⟨r, hr⟩
      refine .inr (Classical.byContradiction fun hplace => ?_)
      obtain ⟨fault, hfault⟩ := Moment.exists_fault_of_not_placeable hplace
      simp [hfault] at hr

/-- The day of the stamp can be told, and the clock shows another one. -/
def OtherDay (clock : Clock) (isRecent : Bool) (stamp : Moment) : Prop :=
  ∃ r, localReading clock isRecent stamp = .ok r ∧ r.date ≠ clock.today

/-- The history has an entry of the event whose day the clock cannot tell, and all entries of the
event before it fell on other days. -/
inductive Untold (event : String) (clock : Clock) (recent : Nat) : List HistoryEntry → Prop where
  | here {h : HistoryEntry} {later : List HistoryEntry} (hevent : h.event = event)
      (htells : ¬Tells clock (later.length < recent) h.stamp) :
      Untold event clock recent (h :: later)
  | later {h : HistoryEntry} {later : List HistoryEntry}
      (hother : h.event = event → OtherDay clock (later.length < recent) h.stamp)
      (hlater : Untold event clock recent later) : Untold event clock recent (h :: later)

/-- Looking for an entry of today fails exactly if the clock comes to an entry whose day it cannot
tell. -/
theorem firedToday_fault_iff (event : String) (clock : Clock) (recent : Nat)
    (history : List HistoryEntry) :
    (∃ fault, firedToday event clock recent history = .error fault) ↔
      Untold event clock recent history := by
  induction history with
  | nil =>
    constructor
    · rintro ⟨fault, h⟩
      cases h
    · intro h
      cases h
  | cons h rest ih =>
    rw [firedToday]
    by_cases hevent : h.event = event
    · rw [if_pos hevent]
      cases hread : localReading clock (rest.length < recent) h.stamp with
      | error fault =>
        have htells : ¬Tells clock (rest.length < recent) h.stamp := by
          rw [tells_iff, hread]
          rintro ⟨r, hr⟩
          cases hr
        exact ⟨fun _ => .here hevent htells, fun _ => ⟨fault, rfl⟩⟩
      | ok r =>
        have htells : Tells clock (rest.length < recent) h.stamp := tells_iff.mpr ⟨r, hread⟩
        by_cases htoday : r.date = clock.today
        · constructor
          · rintro ⟨fault, hfault⟩
            simp [htoday] at hfault
          · intro huntold
            cases huntold with
            | here _ hnot => exact absurd htells hnot
            | later hother _ =>
              obtain ⟨r', hr', hday⟩ := hother hevent
              rw [hread] at hr'
              exact absurd htoday (Except.ok.inj hr' ▸ hday)
        · simp only [htoday, if_false, ih]
          constructor
          · exact fun huntold => .later (fun _ => ⟨r, hread, htoday⟩) huntold
          · intro huntold
            cases huntold with
            | here _ hnot => exact absurd htells hnot
            | later _ hlater => exact hlater
    · rw [if_neg hevent, ih]
      constructor
      · exact fun huntold => .later (fun heq => absurd heq hevent) huntold
      · intro huntold
        cases huntold with
        | here heq _ => exact absurd heq hevent
        | later _ hlater => exact hlater

/-- If no entry of the event falls on the day that the clock shows, each of them falls on another
day. -/
theorem otherDay_of_firedToday {event : String} {clock : Clock} {recent : Nat}
    {history : List HistoryEntry} (h : firedToday event clock recent history = .ok false)
    {before later : List HistoryEntry} {e : HistoryEntry} (hsplit : history = before ++ e :: later)
    (hevent : e.event = event) : OtherDay clock (later.length < recent) e.stamp := by
  induction before generalizing history with
  | nil =>
    subst hsplit
    rw [List.nil_append, firedToday, if_pos hevent] at h
    split at h
    · cases h
    · next r hread =>
      refine ⟨r, hread, fun htoday => ?_⟩
      rw [if_pos htoday] at h
      cases h
  | cons first before ih =>
    subst hsplit
    rw [List.cons_append, firedToday] at h
    split at h
    · split at h
      · cases h
      · split at h
        · cases h
        · exact ih h rfl
    · exact ih h rfl

/-- A stamp that the clock can read shows its instant in the zone of the clock. Stamps that are
taken for the clock's own have to be in its zone. -/
theorem val_of_localReading {clock : Clock} {isRecent : Bool} {stamp : Moment} {r : Reading}
    (h : localReading clock isRecent stamp = .ok r)
    (hzone : isRecent = true → stamp.offset = some clock.offset) :
    (r.val : Int) = stamp.instant + offsetMicros clock.offset := by
  cases isRecent with
  | false => exact Moment.val_of_readingAt (by simpa [localReading] using h)
  | true =>
    obtain rfl : stamp.reading = r := by simpa [localReading] using h
    simp [Moment.instant, hzone rfl]

/-- A stamp that the clock can read has the date that the clock shows exactly if it falls on the day
that the clock shows. -/
theorem date_eq_today_iff {clock : Clock} {isRecent : Bool} {stamp : Moment} {r : Reading}
    (h : localReading clock isRecent stamp = .ok r)
    (hzone : isRecent = true → stamp.offset = some clock.offset) :
    r.date = clock.today ↔ stamp.dayAt clock.offset = clock.day := by
  rw [Clock.today, Reading.date_eq_iff, Moment.dayAt, ← val_of_localReading h hzone, Clock.day]
  omega

/-- The number of another day than the one that the clock shows. -/
theorem OtherDay.dayAt_ne {clock : Clock} {isRecent : Bool} {stamp : Moment}
    (h : OtherDay clock isRecent stamp)
    (hzone : isRecent = true → stamp.offset = some clock.offset) :
    stamp.dayAt clock.offset ≠ clock.day := by
  obtain ⟨r, hread, hother⟩ := h
  exact fun hday => hother ((date_eq_today_iff hread hzone).mpr hday)

end RepeatPolicy

/-- The event may fire once a day. -/
def Event.Daily (e : Event) : Prop := ∃ p, e.trigger.policy = some p ∧ p.kind = .daily

/-- A daily event may repeat unless it has fired today. -/
theorem Event.Daily.mayRepeat_eq {e : Event} (he : e.Daily) (history : List HistoryEntry)
    (recent : Nat) (clock : Clock) :
    e.mayRepeat history recent clock =
      (RepeatPolicy.firedToday e.id clock recent history).map (!·) := by
  obtain ⟨p, hpolicy, hkind⟩ := he
  simp only [mayRepeat, hpolicy, RepeatPolicy.allows, hkind]

/-- A daily event that its policy lets fire has no entry of the day that the clock shows. -/
theorem Event.Daily.firedToday {e : Event} (he : e.Daily) {history : List HistoryEntry}
    {recent : Nat} {clock : Clock} (h : e.mayRepeat history recent clock = .ok true) :
    RepeatPolicy.firedToday e.id clock recent history = .ok false := by
  rw [he.mayRepeat_eq] at h
  cases hfired : RepeatPolicy.firedToday e.id clock recent history with
  | error fault => simp [hfired, Except.map] at h
  | ok fired => cases fired <;> simp [hfired, Except.map] at h ⊢

/-- Only a daily policy can fail to decide, and it fails exactly if the clock comes to an entry of
the event whose day it cannot tell. -/
theorem Event.mayRepeat_fault_iff (e : Event) (history : List HistoryEntry) (recent : Nat)
    (clock : Clock) :
    (∃ fault, e.mayRepeat history recent clock = .error fault) ↔
      e.Daily ∧ RepeatPolicy.Untold e.id clock recent history := by
  unfold mayRepeat Daily
  cases hpolicy : e.trigger.policy with
  | none => simp
  | some p =>
    rw [← RepeatPolicy.firedToday_fault_iff]
    unfold RepeatPolicy.allows
    cases hkind : p.kind with
    | daily =>
      cases RepeatPolicy.firedToday e.id clock recent history <;> simp [Except.map, hkind]
    | count => cases hcount : p.maxCount <;> simp [hkind, hcount]
    | once => simp [hkind]
    | always => simp [hkind]
    | custom => simp [hkind]

end MapEvents
