import MapEvents.Trigger.Repeat
/-!
# An event's own entries

A repeat policy looks for the entries of its event, wherever in the history they stand. What it
makes of an entry depends on the entry and on whether it was stamped since the clock was last set;
`ownEntries` keeps just these two and forgets the entries of other events. An event may fire or not
by its own entries alone, and recording an execution adds one to them.
-/

namespace MapEvents

namespace RepeatPolicy

/-- The entries of the event, each with whether it is among the last ones that count as recent. -/
def ownEntries (event : String) (recent : Nat) : List HistoryEntry → List (HistoryEntry × Bool)
  | [] => []
  | h :: rest =>
    if h.event = event then (h, rest.length < recent) :: ownEntries event recent rest
    else ownEntries event recent rest

variable {event : String} {recent : Nat}

/-! ## What the policies look at -/

/-- The own entries of an event are those of the history with its id. -/
theorem map_fst_ownEntries (event : String) (recent : Nat) (history : List HistoryEntry) :
    (ownEntries event recent history).map (·.1) = history.filter (·.event = event) := by
  induction history with
  | nil => rfl
  | cons h rest ih =>
    by_cases hown : h.event = event
    · simp [ownEntries, hown, ih]
    · simp [ownEntries, hown, ih]

/-- There are as many as are counted. -/
theorem length_ownEntries (event : String) (recent : Nat) (history : List HistoryEntry) :
    (ownEntries event recent history).length = HistoryEntry.countOf event history := by
  rw [HistoryEntry.countOf, List.countP_eq_length_filter, ← map_fst_ownEntries event recent,
    List.length_map]

/-- Whether one of the entries falls on the day that the clock shows. -/
def anyToday (clock : Clock) : List (HistoryEntry × Bool) → Except Fault Bool
  | [] => .ok false
  | (h, isRecent) :: rest =>
    match localReading clock isRecent h.stamp with
    | .error fault => .error fault
    | .ok r => if r.date = clock.today then .ok true else anyToday clock rest

/-- Whether an event has fired today is a matter of its own entries. -/
theorem firedToday_eq (event : String) (clock : Clock) (recent : Nat)
    (history : List HistoryEntry) :
    firedToday event clock recent history = anyToday clock (ownEntries event recent history) := by
  induction history with
  | nil => rfl
  | cons h rest ih =>
    by_cases hown : h.event = event
    · cases hreading : localReading clock (rest.length < recent) h.stamp with
      | error fault => simp [firedToday, ownEntries, anyToday, hown, hreading]
      | ok r => simp [firedToday, ownEntries, anyToday, hown, hreading, ih]
    · simp [firedToday, ownEntries, hown, ih]

variable {history other : List HistoryEntry} {recent' : Nat}

/-- What a repeat policy decides is a matter of the own entries of the event. -/
theorem allows_eq_of_ownEntries_eq (p : RepeatPolicy)
    (h : ownEntries event recent history = ownEntries event recent' other) (clock : Clock) :
    p.allows event history recent clock = p.allows event other recent' clock := by
  have hcount : HistoryEntry.countOf event history = HistoryEntry.countOf event other := by
    rw [← length_ownEntries event recent, h, length_ownEntries]
  have htoday : firedToday event clock recent history = firedToday event clock recent' other := by
    rw [firedToday_eq, h, firedToday_eq]
  rw [allows, allows, hcount, htoday]

/-! ## Recording an execution, and setting the clock -/

/-- Once the clock is set, no entry counts as recent. -/
theorem ownEntries_zero (event : String) (history : List HistoryEntry) :
    ownEntries event 0 history = (history.filter (·.event = event)).map (·, false) := by
  induction history with
  | nil => rfl
  | cons h rest ih =>
    by_cases hown : h.event = event
    · simp [ownEntries, hown, ih]
    · simp [ownEntries, hown, ih]

/-- A new entry is a recent one of its own event. -/
theorem ownEntries_append_singleton (event : String) (recent : Nat)
    (history : List HistoryEntry) (h : HistoryEntry) :
    ownEntries event (recent + 1) (history ++ [h]) =
      ownEntries event recent history ++ if h.event = event then [(h, true)] else [] := by
  induction history with
  | nil => simp [ownEntries]
  | cons first rest ih =>
    -- What comes after an entry is one longer now, and so is what counts as recent.
    have hlength : (rest ++ [h]).length < recent + 1 ↔ rest.length < recent := by simp
    by_cases hown : first.event = event
    · simp only [List.cons_append, ownEntries, hown, ↓reduceIte, ih, hlength]
    · simp only [List.cons_append, ownEntries, hown, ↓reduceIte, ih]

end RepeatPolicy

/-- An event may fire or not by its own entries alone. -/
theorem Event.mayRepeat_eq_of_ownEntries_eq (e : Event) {history other : List HistoryEntry}
    {recent recent' : Nat}
    (h : RepeatPolicy.ownEntries e.id recent history = RepeatPolicy.ownEntries e.id recent' other)
    (clock : Clock) : e.mayRepeat history recent clock = e.mayRepeat other recent' clock := by
  unfold mayRepeat
  cases e.trigger.policy with
  | none => rfl
  | some p => exact p.allows_eq_of_ownEntries_eq h clock

end MapEvents
