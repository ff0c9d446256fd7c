import MapEvents.Proofs.Session.Upkeep
/-!
# How often an event goes into the history

An event that fires once, or a number of times, goes into the history at most that often, unless the
history held more of its entries from the start. Its policy counts the entries before the chain
runs, and the entry is added only after the chain has ended. What makes the count still true by then
is that the session belongs to one call at a time: the chain leaves the history alone, and so does
whatever happens while it is suspended.
-/

namespace MapEvents

variable {σ : Type}

/-- The policy lets an event fire as long as it has fewer entries than this. -/
inductive RepeatPolicy.Caps : RepeatPolicy → Nat → Prop where
  | once {p : RepeatPolicy} (h : p.kind = .once) : Caps p 1
  | count {p : RepeatPolicy} {n : Nat} (h : p.kind = .count) (hcount : p.maxCount = some (n : Int))
      (hn : 1 ≤ n) : Caps p n

/-- The event has a policy that lets it fire at most this often. -/
def Event.Capped (e : Event) (n : Nat) : Prop :=
  ∃ p, e.trigger.policy = some p ∧ p.Caps n

/-- How many entries of the history belong to the event. -/
def World.entriesOf (id : String) (w : World σ) : Nat := HistoryEntry.countOf id w.state.history

/-- The event has at most this many entries. -/
def World.AtMost (id : String) (bound : Nat) (w : World σ) : Prop := w.entriesOf id ≤ bound

/-- The history is the same in both worlds. -/
def World.SameHistory (w v : World σ) : Prop := v.state.history = w.state.history

namespace Call

/-- The call spares the history, and the events that it runs under the id are capped. -/
def Respects (id : String) (n : Nat) (c : Call) : Prop :=
  c.SparesHistory ∧ ∀ e ∈ c.events, e.id = id → e.Capped n

end Call

/-! ## The policy and the history -/

/-- A policy with a cap admits an event only while it has fewer entries. -/
theorem RepeatPolicy.Caps.countOf_lt {p : RepeatPolicy} {n : Nat} (hp : p.Caps n) {event : String}
    {history : List HistoryEntry} {recent : Nat} {clock : Clock}
    (h : p.allows event history recent clock = .ok true) :
    HistoryEntry.countOf event history < n := by
  cases hp with
  | once hkind =>
    have hzero : HistoryEntry.countOf event history = 0 := by
      simpa [allows, hkind] using h
    omega
  | count hkind hcount hn =>
    have hbelow : n = 0 ∨ HistoryEntry.countOf event history < n := by
      simpa [allows, hkind, hcount] using h
    omega

/-- A capped event that its policy lets fire has fewer entries than its cap. -/
theorem Event.Capped.entriesOf_lt {e : Event} {n : Nat} (he : e.Capped n) {w : World σ}
    (h : Session.repeatAllows e w = .ok true) : w.entriesOf e.id < n := by
  obtain ⟨p, hpolicy, hp⟩ := he
  simp only [Session.repeatAllows, mayRepeat, hpolicy] at h
  exact hp.countOf_lt h

/-- Worlds with the same history have as many entries of an event. -/
theorem World.entriesOf_eq_of_sameHistory {w v : World σ} (h : w.SameHistory v) (id : String) :
    v.entriesOf id = w.entriesOf id := by
  unfold entriesOf
  rw [show v.state.history = w.state.history from h]

theorem World.AtMost.of_sameHistory {id : String} {bound : Nat} {w v : World σ}
    (hw : w.AtMost id bound) (h : w.SameHistory v) : v.AtMost id bound := by
  unfold AtMost
  rw [entriesOf_eq_of_sameHistory h]
  exact hw

/-- An entry counts for its own event only. -/
theorem World.entriesOf_record (id event : String) (o : Outcome) (w : World σ) :
    (w.record event o).entriesOf id = w.entriesOf id + if event = id then 1 else 0 := by
  simp [entriesOf, record, GameState.record, HistoryEntry.countOf, List.countP_append,
    List.countP_cons]

/-- An execution that ends adds at most one entry, and only for its own event. -/
theorem Session.entriesOf_conclude_le (id : String) (event : Event) (r : Except Fault Outcome)
    (w : World σ) :
    (conclude event r w).2.entriesOf id ≤ w.entriesOf id + if event.id = id then 1 else 0 := by
  cases r with
  | ok o =>
    have hrecord := World.entriesOf_record id event.id o
      (w.showing ((Execution.running event.id).close .finish o))
    exact Nat.le_of_eq hrecord
  | error fault => exact Nat.le_add_right _ _

/-- An update that does not name the history leaves it as it is. -/
theorem World.sameHistory_update {given : Data} (hgiven : ¬GameState.Names given .history)
    (w : World σ) : w.SameHistory (w.update given).2 := by
  unfold update
  split
  · next state hstate => exact GameState.history_of_update hgiven hstate
  · exact rfl

/-! ## What the calls keep -/

namespace Session

variable {s : Session σ} {id : String} {n bound : Nat}

/-- What an admitted event adds to a history that is as it was when its policy looked at it. -/
theorem conclude_atMost (hn : n ≤ bound) {event : Event} (hcap : event.id = id → event.Capped n)
    {w u : World σ} (hallows : repeatAllows event w = .ok true) (hw : w.AtMost id bound)
    (r : Except Fault Outcome) (hu : w.SameHistory u) :
    (conclude event r u).2.AtMost id bound := by
  have hbefore : w.entriesOf id ≤ bound := hw
  have hadded := entriesOf_conclude_le id event r u
  rw [World.entriesOf_eq_of_sameHistory hu id] at hadded
  unfold World.AtMost
  by_cases hid : event.id = id
  · have hfew := (hcap hid).entriesOf_lt hallows
    rw [hid] at hfew
    rw [if_pos hid] at hadded
    omega
  · rw [if_neg hid] at hadded
    omega

/-- The calls that respect the cap uphold the bound: the chain starts and ends with the history in
which the policy has counted. -/
theorem upholds_atMost (hr : s.player.registry.Fixes fun w => w.state.history) (hn : n ≤ bound) :
    s.Upholds (Call.Respects id n) World.SameHistory (World.AtMost id bound) where
  admits := World.history_aside.admits
  checks _ _ h := congrArg GameState.history h.state
  stable _ _ h hw := hw.of_sameHistory h
  handlers a := hr.obeys World.history_aside a
  patch _ hgiven w := World.sameHistory_update hgiven.1 w
  update _ hgiven w := World.sameHistory_update hgiven.1 w
  conclude _ hcall event hevent _ _ r hallows hw hu :=
    conclude_atMost hn (hcall.2 event hevent) hallows hw r hu

/-- However calls overlap, and whatever others do that leaves the history alone, the entries of a
capped event are never more than its cap allows, or than there were from the start. Hook and
resolver look at the game state and never write it. -/
theorem entriesOf_le_cap (hr : s.player.registry.Fixes fun w => w.state.history) (id : String)
    (n : Nat) {w v : World σ} {c : Calls (World σ) (Except Fault Reply)}
    (h : Calls.Reaches (s.Starts (Call.Respects id n)) World.SameHistory (.empty, w) (c, v)) :
    v.entriesOf id ≤ max n (w.entriesOf id) := by
  have hupholds : s.Upholds (Call.Respects id n) World.SameHistory
      (World.AtMost id (max n (w.entriesOf id))) :=
    upholds_atMost hr (Nat.le_max_left n _)
  exact hupholds.reaches h (Nat.le_max_right n _)

/-- A session with a handler that suspends itself. -/
def slow : Session Unit :=
  { idle with
    player :=
      { Player.idle with registry := [("wait", .custom fun _ _ => .pause (.done (.ok .null)))] } }

/-- An event that fires once, and suspends itself meanwhile. -/
def onlyOnce : Event :=
  { Event.blank with
    trigger := ⟨.interact, [], some ⟨.once, none⟩⟩
    actions := [⟨"wait", "wait", [], none, none, []⟩] }

/-- The event is started twice, and the level is changed while it is suspended. -/
def overlapping : List (Except Fault Call) :=
  [.ok (.execute onlyOnce []), .ok (.execute onlyOnce []),
    .ok (.update [("playerLevel", .int 3)])]

/-- Of executions that overlap, no more than the cap are entered. -/
theorem entriesOf_overlapping_le_cap :
    (slow.player.registry.Fixes fun w : World Unit => w.state.history) ∧
      ∃ c, Calls.Reaches (slow.Starts (Call.Respects "blank" 1)) World.SameHistory
          (.empty, World.fresh) (c, (slow.gather overlapping World.fresh).2) ∧
        (slow.gather overlapping World.fresh).2.entriesOf "blank" ≤
          max 1 (World.fresh.entriesOf "blank") := by
  have hfixes : slow.player.registry.Fixes fun w : World Unit => w.state.history := by
    intro tag run hrun event a
    obtain ⟨-, rfl⟩ : tag = "wait" ∧ run = _ := by simpa [slow] using hrun
    exact True.intro
  have hallowed : ∀ call, .ok call ∈ overlapping → call.Respects "blank" 1 := by
    intro call hcall
    have hcapped : onlyOnce.Capped 1 := ⟨_, rfl, .once rfl⟩
    obtain rfl | rfl : call = .execute onlyOnce [] ∨ call = .update [("playerLevel", .int 3)] := by
      simpa [overlapping] using hcall
    · refine ⟨True.intro, fun e he _ => ?_⟩
      obtain rfl : e = onlyOnce := by simpa [Call.events] using he
      exact hcapped
    · refine ⟨?_, by simp [Call.events]⟩
      rintro ⟨p, hp, hnames⟩
      obtain rfl : p = ("playerLevel", .int 3) := by simpa using hp
      exact absurd hnames (by decide)
  obtain ⟨c, hreaches⟩ := slow.gather_reaches hallowed World.SameHistory World.fresh
  exact ⟨hfixes, c, hreaches, entriesOf_le_cap hfixes "blank" 1 hreaches⟩

end Session

end MapEvents
