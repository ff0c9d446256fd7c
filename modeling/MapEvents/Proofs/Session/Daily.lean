import MapEvents.Proofs.Session.Upkeep
import MapEvents.Proofs.Trigger.Daily
/-!
# Once a day

A daily event is checked against the day on which its chain starts, and its entry bears the moment
at which the chain ends, which may be another day. As long as time only goes forward this cannot
bring two entries together. Every earlier entry is from the past, and from another day than the one
that the check saw, so it is from a day before. The new entry is from that day or a later one.

This needs a clock that stays in one zone, since the days of entries are days in the zone of the
clock, and a history to which only executions add. `World.MovesOn` is what everybody is relied on to
respect: handlers in the middle of a chain, calls that take nothing, and whoever moves the clock.
-/

namespace MapEvents

variable {σ : Type}

namespace World

/-- Time went on in the same zone, and the history stayed. -/
structure MovesOn (w v : World σ) : Prop where
  history : v.state.history = w.state.history
  offset : v.clock.offset = w.clock.offset
  reading : w.clock.reading ≤ v.clock.reading
  recent : v.recent ≤ w.recent

/-- The entries of an event, in their order. -/
def entries (id : String) (w : World σ) : List HistoryEntry :=
  w.state.history.filter fun h => h.event = id

/-- No two entries of the event fall on one day in the zone of the clock. -/
def OncePerDay (id : String) (w : World σ) : Prop :=
  (w.entries id).Pairwise fun g h =>
    g.stamp.dayAt w.clock.offset ≠ h.stamp.dayAt w.clock.offset

/-- No entry of the event is later than the clock. -/
def NothingAhead (id : String) (w : World σ) : Prop :=
  ∀ h ∈ w.entries id, h.stamp.instant ≤ w.clock.now.instant

/-- The entries that count as stamped since the clock was last set are in its zone. A session starts
without such entries, and nothing else in it makes them but its own clock. -/
def RecentInZone (w : World σ) : Prop :=
  ∀ before h later, w.state.history = before ++ h :: later → later.length < w.recent →
    h.stamp.offset = some w.clock.offset

/-- The entries of the event are from different days that have begun. -/
structure DaysApart (id : String) (w : World σ) : Prop where
  once : w.OncePerDay id
  past : w.NothingAhead id
  zone : w.RecentInZone

namespace MovesOn

theorem refl (w : World σ) : w.MovesOn w := ⟨rfl, rfl, Nat.le_refl _, Nat.le_refl _⟩

theorem trans {u v w : World σ} (huv : u.MovesOn v) (hvw : v.MovesOn w) : u.MovesOn w :=
  ⟨hvw.history.trans huv.history, hvw.offset.trans huv.offset,
    Nat.le_trans huv.reading hvw.reading, Nat.le_trans hvw.recent huv.recent⟩

/-- Checking conditions moves the world on, since the clock stands still. -/
theorem of_afterChecks {w v : World σ} (h : w.AfterChecks v) : w.MovesOn v := by
  have hreading : w.clock.reading.val = v.clock.reading.val := by rw [h.clock]
  exact ⟨congrArg _ h.state, congrArg _ h.clock, Nat.le_of_eq hreading, Nat.le_of_eq h.recent⟩

/-- Moving on is what chains are admitted to do. -/
theorem admits : World.Admits (σ := σ) MovesOn :=
  ⟨refl, fun _ _ _ huv hvw => huv.trans hvw, fun _ _ => ⟨rfl, rfl, Nat.le_refl _, Nat.le_refl _⟩,
    fun _ _ => ⟨rfl, rfl, Nat.le_refl _, Nat.le_refl _⟩⟩

/-- An update that brings along no history. -/
theorem update {given : Data} (hgiven : ¬GameState.Names given .history) (w : World σ) :
    w.MovesOn (w.update given).2 := by
  unfold World.update
  split
  · next state hstate =>
    refine ⟨GameState.history_of_update hgiven hstate, rfl, Nat.le_refl _, ?_⟩
    dsimp only
    split
    · exact Nat.zero_le _
    · exact Nat.le_refl _
  · exact refl w

/-- Setting the clock to a later moment of its zone. -/
theorem setClock {clock : Clock} {w : World σ} (hoffset : clock.offset = w.clock.offset)
    (hreading : w.clock.reading ≤ clock.reading) : w.MovesOn (w.setClock clock) :=
  ⟨rfl, hoffset, hreading, Nat.zero_le _⟩

/-- Moving the clock forward. -/
theorem move {micros : Int} (hmicros : 0 ≤ micros) {clock : Clock} {w : World σ}
    (h : w.clock.move micros = .ok clock) : w.MovesOn { w with clock } := by
  obtain ⟨hoffset, hreading⟩ := Clock.eq_of_move h
  have hle : w.clock.reading.val ≤ clock.reading.val := by omega
  exact ⟨rfl, hoffset, hle, Nat.le_refl _⟩

variable {id : String} {w v : World σ}

theorem entries (h : w.MovesOn v) (id : String) : v.entries id = w.entries id := by
  unfold World.entries
  rw [h.history]

/-- No instant that has passed lies ahead again. -/
theorem instant_le (h : w.MovesOn v) : w.clock.now.instant ≤ v.clock.now.instant := by
  have hreading : w.clock.reading.val ≤ v.clock.reading.val := h.reading
  simp only [Moment.instant, Clock.now, h.offset]
  omega

/-- Entries that lie on different days still do when the world has moved on. -/
theorem daysApart (h : w.MovesOn v) (hw : w.DaysApart id) : v.DaysApart id := by
  refine ⟨?_, ?_, ?_⟩
  · unfold OncePerDay
    rw [h.entries, h.offset]
    exact hw.once
  · intro e he
    rw [h.entries] at he
    exact Int.le_trans (hw.past e he) h.instant_le
  · intro before e later hsplit hlater
    rw [h.history] at hsplit
    rw [h.offset]
    exact hw.zone before e later hsplit (Nat.lt_of_lt_of_le hlater h.recent)

end MovesOn

/-! ## Adding an entry -/

/-- An entry is added to the entries of its own event only. -/
theorem entries_record (id event : String) (o : Outcome) (w : World σ) :
    (w.record event o).entries id =
      w.entries id ++ if event = id then [⟨event, w.clock.now, o⟩] else [] := by
  unfold entries record GameState.record
  rw [List.filter_append]
  by_cases h : event = id <;> simp [h]

/-- Right after the clock was set there are none. -/
theorem RecentInZone.of_recent_eq_zero {w : World σ} (h : w.recent = 0) : w.RecentInZone := by
  intro before e later _ hlater
  rw [h] at hlater
  exact absurd hlater (Nat.not_lt_zero _)

/-- The clock's own stamp is in its zone. -/
theorem RecentInZone.record {w : World σ} (hw : w.RecentInZone) (event : String) (o : Outcome) :
    (w.record event o).RecentInZone := by
  intro before h later hsplit hlater
  replace hsplit : w.state.history ++ [⟨event, w.clock.now, o⟩] = before ++ h :: later := hsplit
  replace hlater : later.length < w.recent + 1 := hlater
  rcases List.eq_nil_or_concat later with rfl | ⟨older, last, rfl⟩
  · obtain ⟨-, hlast⟩ := List.append_inj' hsplit rfl
    obtain rfl : _ = h := List.singleton_inj.mp hlast
    rfl
  · rw [List.concat_eq_append, ← List.cons_append, ← List.append_assoc] at hsplit
    obtain ⟨hhistory, -⟩ := List.append_inj' hsplit rfl
    rw [List.concat_eq_append, List.length_append, List.length_singleton] at hlater
    exact hw before h older hhistory (by omega)

/-- An entry may be added if the days of all entries of its event are over. -/
theorem DaysApart.record {id : String} {w : World σ} (hw : w.DaysApart id) {event : String}
    (hover : event = id → ∀ h ∈ w.entries id, h.stamp.dayAt w.clock.offset < w.clock.day)
    (o : Outcome) : (w.record event o).DaysApart id := by
  refine ⟨?_, ?_, hw.zone.record event o⟩
  · unfold OncePerDay
    rw [entries_record]
    refine List.pairwise_append.mpr ⟨hw.once, ?_, fun g hg h hh => ?_⟩
    · split <;> simp
    · by_cases hid : event = id
      · rw [if_pos hid, List.mem_singleton] at hh
        subst hh
        show g.stamp.dayAt w.clock.offset ≠ w.clock.now.dayAt w.clock.offset
        rw [Clock.dayAt_now]
        exact Int.ne_of_lt (hover hid g hg)
      · rw [if_neg hid] at hh
        cases hh
  · intro h hh
    rw [entries_record, List.mem_append] at hh
    rcases hh with hh | hh
    · exact hw.past h hh
    · by_cases hid : event = id
      · rw [if_pos hid, List.mem_singleton] at hh
        subst hh
        exact Int.le_refl _
      · rw [if_neg hid] at hh
        cases hh

end World

/-- In a world that lets a daily event fire, the days of all its entries are over. -/
theorem Event.Daily.dayAt_lt {e : Event} (he : e.Daily) {w : World σ} (hw : w.DaysApart e.id)
    (hallows : Session.repeatAllows e w = .ok true) {h : HistoryEntry} (hh : h ∈ w.entries e.id) :
    h.stamp.dayAt w.clock.offset < w.clock.day := by
  obtain ⟨hmem, hevent⟩ : h ∈ w.state.history ∧ h.event = e.id := by
    simpa [World.entries] using hh
  obtain ⟨before, later, hsplit⟩ := List.append_of_mem hmem
  have hother := RepeatPolicy.otherDay_of_firedToday (he.firedToday hallows) hsplit hevent
  have hne : h.stamp.dayAt w.clock.offset ≠ w.clock.day :=
    hother.dayAt_ne fun hrecent => hw.zone before h later hsplit (of_decide_eq_true hrecent)
  have hle : h.stamp.dayAt w.clock.offset ≤ w.clock.day := by
    rw [← Clock.dayAt_now]
    exact Moment.dayAt_le_dayAt (hw.past h hh) _
  omega

/-- The call spares the history, and the events that it runs under the id are daily. -/
def Call.KeepsDaily (id : String) (c : Call) : Prop :=
  c.SparesHistory ∧ ∀ e ∈ c.events, e.id = id → e.Daily

namespace Session

variable {s : Session σ} {id : String}

/-- The entry of a daily event goes to the day of its check or to a later one. -/
theorem conclude_daysApart {event : Event} (hdaily : event.id = id → event.Daily) {w u : World σ}
    (hallows : repeatAllows event w = .ok true) (hw : w.DaysApart id) (hu : w.MovesOn u)
    (r : Except Fault Outcome) : (conclude event r u).2.DaysApart id := by
  have happart : u.DaysApart id := hu.daysApart hw
  cases r with
  | error fault => exact ⟨happart.once, happart.past, happart.zone⟩
  | ok o =>
    have hshown : (u.showing ((Execution.running event.id).close .finish o)).DaysApart id :=
      ⟨happart.once, happart.past, happart.zone⟩
    refine hshown.record (fun hid h hh => ?_) o
    subst hid
    replace hh : h ∈ w.entries event.id := hu.entries event.id ▸ hh
    calc h.stamp.dayAt u.clock.offset
        = h.stamp.dayAt w.clock.offset := by rw [hu.offset]
      _ < w.clock.day := (hdaily rfl).dayAt_lt hw hallows hh
      _ ≤ u.clock.day := Clock.day_le_day hu.reading

/-- Calls that keep an event daily uphold that its entries lie on different days, if handlers only
move the world on. -/
theorem upholds_daysApart (hr : s.player.registry.ActsWithin World.MovesOn) :
    s.Upholds (Call.KeepsDaily id) World.MovesOn (World.DaysApart id) where
  admits := World.MovesOn.admits
  checks _ _ h := .of_afterChecks h
  stable _ _ h hw := h.daysApart hw
  handlers := hr.obeys fun _ _ h => ⟨h.history, rfl, Nat.le_refl _, Nat.le_refl _⟩
  patch _ hgiven w := .update hgiven.1 w
  update _ hgiven w := .update hgiven.1 w
  conclude _ hcall event hevent _ _ r hallows hw hu :=
    conclude_daysApart (hcall.2 event hevent) hallows hw hu r

/-- Entries of a daily event stay apart. If they are from different days at the start, and none is
later than the clock, they are from different days after any number of turns of calls, moves of the
clock forward in its zone, and updates that spare the history. In particular the dates that they
have in the zone of the clock are different. A stamp without zone is one of the host's own, taken to
be UTC; hook and resolver look at the game state and never write it. -/
theorem daily_once_per_day (hr : s.player.registry.ActsWithin World.MovesOn) (id : String)
    {w v : World σ} {c : Calls (World σ) (Except Fault Reply)} (hzone : w.RecentInZone)
    (hpast : w.NothingAhead id) (honce : w.OncePerDay id)
    (h : Calls.Reaches (s.Starts (Call.KeepsDaily id)) World.MovesOn (.empty, w) (c, v)) :
    v.OncePerDay id ∧ v.NothingAhead id ∧ v.RecentInZone ∧
      (v.entries id).Pairwise fun g h => ∀ r r', g.stamp.readingAt v.clock.offset = .ok r →
        h.stamp.readingAt v.clock.offset = .ok r' → r.date ≠ r'.date := by
  have happart : v.DaysApart id := (upholds_daysApart hr).reaches h ⟨honce, hpast, hzone⟩
  refine ⟨happart.once, happart.past, happart.zone, happart.once.imp ?_⟩
  intro g h hdays r r' hread hread' hdate
  exact hdays ((Moment.dayAt_eq_iff hread hread').mpr hdate)

end Session

/-! ## A night -/

/-- The world after waiting for this reading of the clock, unless the clock is past it. -/
def World.waitUntil (r : Reading) (w : World σ) : World σ :=
  if w.clock.reading ≤ r then w.setClock ⟨r, w.clock.offset⟩ else w

theorem World.MovesOn.waitUntil (r : Reading) (w : World σ) : w.MovesOn (w.waitUntil r) := by
  unfold World.waitUntil
  split
  · next hle => exact setClock rfl hle
  · exact refl w

/-- Six o'clock in the morning after `Clock.start`. -/
def Reading.morning : Reading := ⟨63871394400000000, by decide⟩

/-- A session with a handler that waits for the next morning. -/
def Session.nightly : Session Unit :=
  { idle with
    player :=
      { Player.idle with
        registry :=
          [("sleep", .custom fun _ _ =>
            .act (fun p => (p.1.waitUntil .morning, p.2)) fun _ => .pause (.done (.ok .null)))] } }

/-- A daily event that sleeps over midnight. -/
def Event.dream : Event :=
  { Event.blank with
    trigger := ⟨.interact, [], some ⟨.daily, none⟩⟩
    actions := [⟨"sleep", "sleep", [], none, none, []⟩] }

/-- Two dreams, and a level that changes during the first one. -/
def Session.night : List (Except Fault Call) :=
  [.ok (.execute .dream []), .ok (.execute .dream []), .ok (.update [("playerLevel", .int 3)])]

namespace Session

/-- After a night of two dreams, the first of which lasts past midnight, the event has at most one
entry a day. -/
theorem nightly_once_per_day :
    nightly.player.registry.ActsWithin World.MovesOn ∧ World.fresh.RecentInZone ∧
      World.fresh.NothingAhead "blank" ∧ World.fresh.OncePerDay "blank" ∧
      ∃ c, Calls.Reaches (nightly.Starts (Call.KeepsDaily "blank")) World.MovesOn
          (.empty, World.fresh) (c, (nightly.gather night World.fresh).2) ∧
        (nightly.gather night World.fresh).2.OncePerDay "blank" := by
  have hacts : nightly.player.registry.ActsWithin World.MovesOn := by
    intro tag run hrun event a
    obtain ⟨-, rfl⟩ : tag = "sleep" ∧ run = _ := by simpa [nightly] using hrun
    exact ⟨fun p => .waitUntil .morning p.1, fun _ => True.intro⟩
  have hzone : World.fresh.RecentInZone := .of_recent_eq_zero rfl
  have hpast : World.fresh.NothingAhead "blank" := fun h hh => nomatch hh
  have honce : World.fresh.OncePerDay "blank" := List.Pairwise.nil
  have hallowed : ∀ call, .ok call ∈ night → call.KeepsDaily "blank" := by
    intro call hcall
    have hdaily : Event.dream.Daily := ⟨_, rfl, rfl⟩
    obtain rfl | rfl : call = .execute .dream [] ∨ call = .update [("playerLevel", .int 3)] := by
      simpa [night] using hcall
    · refine ⟨True.intro, fun e he _ => ?_⟩
      obtain rfl : e = .dream := by simpa [Call.events] using he
      exact hdaily
    · refine ⟨?_, by simp [Call.events]⟩
      rintro ⟨p, hp, hnames⟩
      obtain rfl : p = ("playerLevel", .int 3) := by simpa using hp
      exact absurd hnames (by decide)
  obtain ⟨c, hreaches⟩ := nightly.gather_reaches hallowed World.MovesOn World.fresh
  exact ⟨hacts, hzone, hpast, honce, c, hreaches,
    (daily_once_per_day hacts "blank" hzone hpast honce hreaches).1⟩

end Session

end MapEvents
