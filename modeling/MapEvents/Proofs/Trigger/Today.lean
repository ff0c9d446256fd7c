import MapEvents.Proofs.Chain.Visit
import MapEvents.Proofs.Trigger.Daily
/-!
# What a daily policy depends on

A daily policy compares calendar dates in the zone of the clock. Dates are a matter of instants: an
entry is of today if its instant and that of the clock, moved by the offset of the clock, lie in one
day. The zone that an entry is written in, the order of the entries and the entries of other events
play no part in an answer.

The policy decides if each entry of the event has a place in the zone of the clock. An entry without
zone on the very first day has none, though the clock may be in UTC and the entry then needs no move
at all: the policy fails, and even an entry of today behind it is not found.
-/

namespace MapEvents

namespace RepeatPolicy

/-- Some entry of the event falls on the day that the clock shows. -/
def Today (event : String) (clock : Clock) (history : List HistoryEntry) : Prop :=
  ∃ h ∈ history, h.event = event ∧ h.stamp.dayAt clock.offset = clock.now.dayAt clock.offset

/-- The entries that count as stamped by the clock are in its zone. -/
def InZone (clock : Clock) (recent : Nat) (history : List HistoryEntry) : Prop :=
  ∀ before h later, history = before ++ h :: later → later.length < recent →
    h.stamp.offset = some clock.offset

/-- The event has an entry at this instant. -/
def HasInstant (event : String) (history : List HistoryEntry) (instant : Int) : Prop :=
  ∃ h ∈ history, h.event = event ∧ h.stamp.instant = instant

/-- Without recent entries none of them is out of the clock's zone. -/
theorem inZone_of_recent_eq_zero (clock : Clock) (history : List HistoryEntry) :
    InZone clock 0 history :=
  fun _ _ later _ hlater => absurd hlater (Nat.not_lt_zero later.length)

variable {event : String} {clock : Clock} {recent : Nat} {history : List HistoryEntry}

/-- Recent entries that are in the zone of the clock still are without the oldest entry. -/
theorem InZone.of_cons {h : HistoryEntry} (hzone : InZone clock recent (h :: history)) :
    InZone clock recent history :=
  fun before e later hsplit => hzone (h :: before) e later (by rw [hsplit]; rfl)

/-- An answer tells whether there is an entry of today. -/
theorem firedToday_eq_ok {fired : Bool} (hzone : InZone clock recent history)
    (h : firedToday event clock recent history = .ok fired) :
    fired = true ↔ Today event clock history := by
  induction history with
  | nil =>
    obtain rfl : false = fired := Except.ok.inj h
    simp [Today]
  | cons e rest ih =>
    have hrest : Today event clock (e :: rest) ↔
        (e.event = event ∧ e.stamp.dayAt clock.offset = clock.now.dayAt clock.offset) ∨
          Today event clock rest := by
      simp [Today]
    rw [firedToday] at h
    by_cases hevent : e.event = event
    · rw [if_pos hevent] at h
      cases hread : localReading clock (rest.length < recent) e.stamp with
      | error fault =>
        rw [hread] at h
        cases h
      | ok r =>
        have hdate := date_eq_today_iff hread fun hrecent =>
          hzone [] e rest rfl (by simpa using hrecent)
        rw [← Clock.dayAt_now] at hdate
        rw [hread] at h
        by_cases htoday : r.date = clock.today
        · simp only [htoday, if_true] at h
          obtain rfl : true = fired := Except.ok.inj h
          simp [hrest, hevent, hdate.mp htoday]
        · simp only [htoday, if_false] at h
          rw [hrest, ih hzone.of_cons h]
          simp [mt hdate.mpr htoday]
    · rw [if_neg hevent] at h
      rw [hrest, ih hzone.of_cons h]
      simp [hevent]

/-- Instants alone tell whether there is an entry of today. -/
theorem today_iff_exists_instant :
    Today event clock history ↔ ∃ t, HasInstant event history t ∧
      (t + offsetMicros clock.offset) / dayLength = clock.now.dayAt clock.offset := by
  constructor
  · rintro ⟨h, hmem, hevent, hday⟩
    exact ⟨h.stamp.instant, ⟨h, hmem, hevent, rfl⟩, hday⟩
  · rintro ⟨t, ⟨h, hmem, hevent, rfl⟩, hday⟩
    exact ⟨h, hmem, hevent, hday⟩

/-- The clock can tell all days if each entry of the event has a place in its zone. -/
theorem not_untold_of_placeable
    (h : ∀ e ∈ history, e.event = event → e.stamp.Placeable clock.offset) :
    ¬Untold event clock recent history := by
  intro huntold
  induction huntold with
  | here hevent htells => exact htells (.inr (h _ List.mem_cons_self hevent))
  | later _ _ ih => exact ih fun e he => h e (List.mem_cons_of_mem _ he)

end RepeatPolicy

open RepeatPolicy

/-- A daily event that can be decided is refused exactly if it has an entry of today. -/
theorem Event.Daily.mayRepeat_eq_ok {e : Event} (he : e.Daily) {history : List HistoryEntry}
    {recent : Nat} {clock : Clock} (hzone : InZone clock recent history) {allowed : Bool}
    (h : e.mayRepeat history recent clock = .ok allowed) :
    allowed = false ↔ Today e.id clock history := by
  rw [he.mayRepeat_eq] at h
  cases hfired : RepeatPolicy.firedToday e.id clock recent history with
  | error fault =>
    rw [hfired] at h
    cases h
  | ok fired =>
    rw [hfired] at h
    obtain rfl : (!fired) = allowed := Except.ok.inj h
    rw [← firedToday_eq_ok hzone hfired, Bool.not_eq_false']

/-- A daily policy decides if each entry of the event has a place in the zone of the clock. It fails
exactly if it comes to an entry whose day the clock cannot tell. Wherever it decides, it refuses the
event exactly if the event has an entry of the day that the clock shows, and histories in which the
event has entries at the same instants are answered alike, whatever else is in them. A stamp without
zone is one of the host's own, taken to be UTC. -/
theorem Event.Daily.decides_by_day {e : Event} (he : e.Daily) {clock : Clock} {recent : Nat}
    {history : List HistoryEntry} (hzone : InZone clock recent history) :
    ((∀ h ∈ history, h.event = e.id → h.stamp.Placeable clock.offset) →
      ∃ allowed, e.mayRepeat history recent clock = .ok allowed) ∧
    ((∃ fault, e.mayRepeat history recent clock = .error fault) ↔
      Untold e.id clock recent history) ∧
    (∀ allowed, e.mayRepeat history recent clock = .ok allowed →
      (allowed = false ↔ Today e.id clock history)) ∧
    ∀ recent' history', InZone clock recent' history' →
      (∀ t, HasInstant e.id history' t ↔ HasInstant e.id history t) →
      ∀ allowed allowed', e.mayRepeat history recent clock = .ok allowed →
        e.mayRepeat history' recent' clock = .ok allowed' → allowed' = allowed := by
  refine ⟨fun hplace => ?_, ?_, fun allowed h => he.mayRepeat_eq_ok hzone h, ?_⟩
  · cases hanswer : e.mayRepeat history recent clock with
    | ok allowed => exact ⟨allowed, rfl⟩
    | error fault =>
      obtain ⟨-, huntold⟩ := (e.mayRepeat_fault_iff history recent clock).mp ⟨fault, hanswer⟩
      exact absurd huntold (not_untold_of_placeable hplace)
  · rw [e.mayRepeat_fault_iff]
    exact and_iff_right he
  · intro recent' history' hzone' hinstants allowed allowed' h h'
    have htoday : Today e.id clock history' ↔ Today e.id clock history := by
      simp only [today_iff_exists_instant, hinstants]
    have hsame : allowed' = false ↔ allowed = false :=
      ((he.mayRepeat_eq_ok hzone' h').trans htoday).trans (he.mayRepeat_eq_ok hzone h).symm
    exact Bool.not_inj (Bool.coe_false_iff_false.mp hsame)

/-- An event that may fire once a day. -/
def Event.supper : Event :=
  { Event.blank with
    id := "supper"
    trigger := ⟨.interact, [], some ⟨.daily, none⟩⟩ }

/-- Supper is a daily event. -/
theorem Event.supper_daily : Event.supper.Daily := ⟨⟨.daily, none⟩, rfl, rfl⟩

/-- One in the morning of 11 March 2025, nine hours ahead of UTC. -/
def Clock.lateNight : Clock := ⟨⟨63877251600000000, by decide⟩, 540⟩

/-- A supper at eight in the evening of 10 March 2025, without zone. The breakfast before it is from
the first day of the calendar. -/
def meals : List HistoryEntry :=
  [⟨"breakfast", ⟨⟨18000000000, by decide⟩, none⟩, .success⟩,
    ⟨"supper", ⟨⟨63877233600000000, by decide⟩, none⟩, .failed⟩]

/-- There was a supper today, so it is refused. -/
theorem supper_was_today :
    InZone .lateNight 0 meals ∧
      (∀ h ∈ meals, h.event = Event.supper.id → h.stamp.Placeable Clock.lateNight.offset) ∧
      Event.supper.mayRepeat meals 0 .lateNight = .ok false := by
  have hzone : InZone .lateNight 0 meals := inZone_of_recent_eq_zero _ _
  have hplace : ∀ h ∈ meals, h.event = Event.supper.id →
      h.stamp.Placeable Clock.lateNight.offset := by
    intro h hmem hevent
    rcases List.mem_pair.mp hmem with rfl | rfl
    · exact absurd hevent (by decide)
    · exact ⟨fun _ => by decide, by decide, by decide⟩
  have htoday : Today Event.supper.id .lateNight meals :=
    ⟨_, List.mem_cons_of_mem _ List.mem_cons_self, rfl, by decide⟩
  obtain ⟨hdecides, -, hday, -⟩ := Event.supper_daily.decides_by_day hzone
  obtain ⟨allowed, hanswer⟩ := hdecides hplace
  obtain rfl := (hday allowed hanswer).mpr htoday
  exact ⟨hzone, hplace, hanswer⟩

/-- Two suppers, one at five in the morning on the first day of the calendar, without zone, and one
on the day on which the clock starts. -/
def oldMeals : List HistoryEntry :=
  [⟨"supper", ⟨⟨18000000000, by decide⟩, none⟩, .success⟩,
    ⟨"supper", ⟨⟨63871315200000000, by decide⟩, some 0⟩, .success⟩]

/-- It is not enough that the entries of the event lie in the calendar when they are moved to the
zone of the clock: at one without zone on the first day the policy fails, and does not come to the
entry of today for which it would have to refuse the event. -/
theorem zoneless_first_day_breaks :
    ¬∀ history : List HistoryEntry,
      (∀ h ∈ history, h.event = Event.supper.id →
        0 ≤ h.stamp.instant + offsetMicros Clock.start.offset ∧
          h.stamp.instant + offsetMicros Clock.start.offset < calendarLength) →
      (Event.supper.mayRepeat history 0 .start = .ok false ↔
        Today Event.supper.id .start history) := by
  intro hclaim
  have hwithin : ∀ h ∈ oldMeals, h.event = Event.supper.id →
      0 ≤ h.stamp.instant + offsetMicros Clock.start.offset ∧
        h.stamp.instant + offsetMicros Clock.start.offset < calendarLength := by
    decide
  have htoday : Today Event.supper.id .start oldMeals :=
    ⟨_, List.mem_cons_of_mem _ List.mem_cons_self, rfl, by decide⟩
  have hfails : Event.supper.mayRepeat oldMeals 0 .start = .error .unplaceableTime := by decide
  rw [(hclaim oldMeals hwithin).mpr htoday] at hfails
  cases hfails

end MapEvents
