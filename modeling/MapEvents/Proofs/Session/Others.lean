import MapEvents.Proofs.Chain.Alike
import MapEvents.Proofs.Session.Daily
import MapEvents.Proofs.Session.Update
import MapEvents.Proofs.Trigger.Today
/-!
# The entries of other events

All that an execution makes of the history is to look for the entries of its own event, and to add
one to them. So in two worlds that are the same but for the entries of other events it ends in the
same way, with the same requests on the way there, and leaves two worlds that are again the same but
for these entries. Neither how many entries the others have nor what they look like plays a part;
their stamps need not even lie in the calendar of the clock's zone.

Handlers, hook and resolver may look at the game as well, and must not see the other entries for
this to hold. Clock and state may be changed by them. An update may even replace the history, and
then nothing of the other entries is left: an execution by itself keeps them, and its handlers have
to leave them alone too.
-/

namespace MapEvents

variable {σ : Type}

/-! ## Changing worlds that are alike -/

namespace World.AlikeFor

variable {event : String} {w v : World σ}

theorem setClock (h : w.AlikeFor event v) (clock : Clock) :
    (w.setClock clock).AlikeFor event (v.setClock clock) := by
  refine ⟨h.state, ?_, rfl, h.journal, h.execution, h.outside⟩
  change RepeatPolicy.ownEntries event 0 v.state.history =
    RepeatPolicy.ownEntries event 0 w.state.history
  rw [RepeatPolicy.ownEntries_zero, RepeatPolicy.ownEntries_zero, h.states.own]

theorem waitUntil (h : w.AlikeFor event v) (r : Reading) :
    (w.waitUntil r).AlikeFor event (v.waitUntil r) := by
  unfold World.waitUntil
  rw [h.clock]
  split
  · exact h.setClock _
  · exact h

/-- An update is refused in both worlds, or leaves worlds that are alike; it may replace the
history. -/
theorem update (h : w.AlikeFor event v) (given : Data) :
    World.AnswersAlike event (w.update given) (v.update given) := by
  rcases h.states.update given with ⟨fault, hw, hv⟩ | ⟨s, t, hs, ht, hst⟩
  · rw [update_of_error hw, update_of_error hv]
    exact ⟨rfl, h⟩
  · rw [update_of_ok hs, update_of_ok ht]
    refine ⟨rfl, hst.rest, ?_, h.clock, h.journal, h.execution, h.outside⟩
    simp only [updated]
    by_cases hnames : GameState.Names given .history
    · have hreplaced : (given.any fun p => GameState.Field.ofKey? p.1 = some .history) = true := by
        simpa [GameState.Names] using hnames
      rw [if_pos hreplaced, if_pos hreplaced, RepeatPolicy.ownEntries_zero,
        RepeatPolicy.ownEntries_zero, hst.own]
    · have hkept : ¬(given.any fun p => GameState.Field.ofKey? p.1 = some .history) = true := by
        simpa [GameState.Names] using hnames
      rw [if_neg hkept, if_neg hkept, GameState.history_of_update hnames hs,
        GameState.history_of_update hnames ht]
      exact h.own

/-- Recording an execution adds the same entry to what the event has in both worlds. -/
theorem record (h : w.AlikeFor event v) (id : String) (o : Outcome) :
    (w.record id o).AlikeFor event (v.record id o) := by
  refine ⟨?_, ?_, h.clock, h.journal, h.execution, h.outside⟩
  · simp only [World.record]
    rw [h.state]
    rfl
  · simp only [World.record, GameState.record]
    rw [RepeatPolicy.ownEntries_append_singleton, RepeatPolicy.ownEntries_append_singleton, h.own,
      Clock.now, Clock.now, h.clock]

end World.AlikeFor

/-! ## Executions in worlds that are alike -/

namespace Session

variable {s : Session σ} {event : Event} {w v : World σ}

/-- Under a time limit a chain still does the same in worlds that are alike. -/
theorem limited_alike {W α : Type} {R : W → W → Prop} {chain : Task W (Except Fault α)}
    (h : chain.Alike R chain) (limit : Option Double) :
    (limited limit chain).Alike R (limited limit chain) := by
  unfold limited
  cases limit with
  | none => exact h
  | some x =>
    refine .pause ?_
    cases x.le .zero with
    | true => exact .done _
    | false =>
      refine h.afterPause fun hrest => ?_
      cases shortLimit.lt x with
      | true => exact hrest.unlessHung _
      | false => exact hrest.within _ 0

/-- The actions of an event do the same in worlds that are alike, if the player is blind to the
difference. -/
theorem runActions_alike (hs : s.player.BlindFor event) (data : Data) :
    (s.runActions event data).Alike (World.AlikeFor event.id) (s.runActions event data) := by
  refine limited_alike ?_ s.timeLimit
  exact ((Chain.runChain_alike hs event.actions s.stepLimit).withLocal data).map _

/-- The repeat policy decides the same in worlds that are alike, since it looks only at the event's
own entries. -/
theorem screenRepeat_alike (h : w.AlikeFor event.id v) :
    World.AnswersAlike event.id (screenRepeat event w) (screenRepeat event v) := by
  have hrepeat : event.mayRepeat v.state.history v.recent v.clock =
      event.mayRepeat w.state.history w.recent w.clock := by
    rw [h.clock]
    exact event.mayRepeat_eq_of_ownEntries_eq h.own w.clock
  unfold screenRepeat
  rw [hrepeat]
  rcases event.mayRepeat w.state.history w.recent w.clock with fault | _ | _
  · exact ⟨rfl, h.showing _⟩
  · exact ⟨rfl, h.showing _⟩
  · exact ⟨rfl, h.showing _⟩

/-- The two checks decide the same in worlds that are alike. -/
theorem screen_alike (hs : s.player.BlindFor event) (h : w.AlikeFor event.id v) :
    World.AnswersAlike event.id (s.screen event w) (s.screen event v) := by
  have htrigger := Condition.checkAll_alike hs.surroundings h event.trigger.conditions
  obtain ⟨r, w', v', hw, hv, hworlds⟩ := htrigger.exists_eq
  unfold screen
  rw [hw, hv]
  rcases r with fault | _ | _
  · exact ⟨rfl, hworlds.showing _⟩
  · exact ⟨rfl, hworlds.showing _⟩
  · exact screenRepeat_alike hworlds

/-- An execution is concluded the same in worlds that are alike. -/
theorem conclude_alike (h : w.AlikeFor event.id v) (r : Except Fault Outcome) :
    World.AnswersAlike event.id (conclude event r w) (conclude event r v) := by
  cases r with
  | ok o => exact ⟨rfl, (h.showing _).record event.id o⟩
  | error fault => exact ⟨rfl, (h.note _).showing _⟩

/-- An execution does the same in worlds that are alike for its event. -/
theorem execute_alike (hs : s.player.BlindFor event) (data : Data) :
    (s.execute event data).Alike (World.AlikeFor event.id) (s.execute event data) := by
  refine Task.Alike.andThen (.step fun w v h => screen_alike hs h) fun refused => ?_
  cases refused with
  | some o => exact .done _
  | none =>
    refine (runActions_alike hs data).bind fun r => ?_
    exact (Task.Alike.step fun w v h => conclude_alike h r).map Except.ok

end Session

/-! ## What an execution leaves to the others -/

/-- The entries of all events but this one, in their order. -/
def World.others (event : String) (w : World σ) : List HistoryEntry :=
  w.state.history.filter (·.event ≠ event)

/-- The entries of other events stand aside: chains by themselves do not write them. -/
theorem World.others_aside (event : String) : Aside (World.others (σ := σ) event) := by
  refine ⟨fun _ _ => rfl, fun _ _ => rfl, fun w state h => ?_⟩
  simp only [World.others, h.history]

/-- An execution adds nothing to the entries of other events. -/
theorem World.others_record (event : String) (o : Outcome) (w : World σ) :
    (w.record event o).others event = w.others event := by
  simp [World.others, World.record, GameState.record]

namespace Session

variable {s : Session σ} {event : Event}

/-- An execution leaves the entries of other events alone if the custom handlers do. -/
theorem execute_fixes_others (hr : s.player.registry.Fixes (World.others event.id)) (data : Data) :
    (s.execute event data).Fixes (World.others event.id) := by
  refine Task.obeys_iff_fixes.mp ?_
  refine Task.Obeys.andThen (.step fun w => ?_) fun refused => ?_
  · have hchecks := s.screen_afterChecks event w
    simp only [World.others, hchecks.state]
  · cases refused with
    | some o => trivial
    | none =>
      refine Task.Obeys.bind ?_ fun r => Task.Obeys.map (.step fun w => ?_) _
      · exact Task.obeys_iff_fixes.mpr
          (runActions_fixes hr (World.others_aside event.id) event data)
      · cases r with
        | ok o => exact World.others_record event.id o _
        | error fault => rfl

/-- In two worlds that are the same but for the entries of other events, an execution gives the same
answer and leaves two worlds that are the same but for these entries, if hook, resolver and custom
handlers do not see them. In each world they stay as they were if the custom handlers leave them
alone. Hook and resolver never write the game state they look at, and a stamp without zone is one of
the host's own, taken to be UTC. -/
theorem others_never_interfere (hs : s.player.BlindFor event) {w v : World σ}
    (h : w.AlikeFor event.id v) (data : Data) :
    ((s.execute event data).run w).1 = ((s.execute event data).run v).1 ∧
      ((s.execute event data).run w).2.AlikeFor event.id ((s.execute event data).run v).2 ∧
      (s.player.registry.Fixes (World.others event.id) →
        ((s.execute event data).run w).2.others event.id = w.others event.id ∧
          ((s.execute event data).run v).2.others event.id = v.others event.id) := by
  have hrun := (execute_alike hs data).run h
  refine ⟨hrun.1, hrun.2, fun hr => ?_⟩
  have hobeys := Task.obeys_iff_fixes.mpr (execute_fixes_others hr data)
  have hstay : ∀ u : World σ,
      ((s.execute event data).run u).2.others event.id = u.others event.id := by
    intro u
    refine Task.Obeys.run ?_ ?_ hobeys u
    · intro u
      rfl
    · intro u v w huv hvw
      exact hvw.trans huv
  exact ⟨hstay w, hstay v⟩

/-- A session like `nightly` with a hook and a resolver that look at flags. -/
def wary : Session Unit :=
  { nightly with
    player :=
      { nightly.player with
        surroundings :=
          { Surroundings.agreeable with
            hook := some fun c t o => (.ok (t.flag? (c.key.getD "")).isNone, o)
            resolver := some fun id t o => (.ok (t.flag? id).isSome, o) } } }

/-- A daily event that asks the hook, sleeps over midnight and asks the resolver. -/
def nightmare : Event :=
  { Event.dream with
    trigger := ⟨.interact, [⟨.custom, .equal, some "awake", none, none⟩], some ⟨.daily, none⟩⟩
    actions := [⟨"sleep", "sleep", [], none, none, [⟨"brave", "sleep"⟩]⟩] }

/-- A nightmare on the first day of 2024. -/
def lastNightmare : HistoryEntry := ⟨"blank", ⟨⟨63839664000000000, by decide⟩, some 0⟩, .success⟩

/-- A world in which there were nightmares and nothing else. -/
def quietWorld : World Unit :=
  { World.fresh with state := { GameState.initial with history := [lastNightmare] } }

/-- A world in which there were meals too; the breakfast cannot be moved to the zone of the clock,
and the second supper was stamped by it. -/
def busyWorld : World Unit :=
  { World.fresh with
    state :=
      { GameState.initial with
        history := meals ++ [lastNightmare, ⟨"supper", Clock.start.now, .success⟩] }
    recent := 1 }

/-- The wary player looks at flags only, so it is blind to the entries of other events. -/
theorem wary_blindFor : wary.player.BlindFor nightmare where
  surroundings :=
    { hook := by
        intro hook hhook c o p q h
        obtain rfl := Option.some.inj hhook
        rw [h.rest]
        rfl
      resolver := by
        intro resolver hresolver c o p q h
        obtain rfl := Option.some.inj hresolver
        rw [h.rest]
        rfl }
  handlers := by
    intro tag run hrun a
    obtain ⟨-, rfl⟩ : tag = "sleep" ∧ run = _ := by simpa [wary, nightly] using hrun
    exact .act (fun p q h => ⟨h.1.waitUntil .morning, h.2⟩) fun p q h => .pause (.done _)

/-- The nightmare ends the same in the quiet world and in the busy one, whose meals it leaves
alone. -/
theorem meals_do_not_interfere :
    wary.player.BlindFor nightmare ∧ quietWorld.AlikeFor "blank" busyWorld ∧
      wary.player.registry.Fixes (World.others "blank") ∧
      ((wary.execute nightmare []).run quietWorld).1 =
        ((wary.execute nightmare []).run busyWorld).1 ∧
      ((wary.execute nightmare []).run busyWorld).2.others "blank" =
        busyWorld.others "blank" := by
  have halike : quietWorld.AlikeFor "blank" busyWorld :=
    ⟨rfl, by decide +kernel, rfl, rfl, rfl, rfl⟩
  have hfixes : wary.player.registry.Fixes (World.others "blank") := by
    intro tag run hrun event a
    obtain ⟨-, rfl⟩ : tag = "sleep" ∧ run = _ := by simpa [wary, nightly] using hrun
    refine ⟨fun p => ?_, fun _ => True.intro⟩
    simp only [World.others, (World.MovesOn.waitUntil .morning p.1).history]
  obtain ⟨hanswer, -, hstay⟩ := others_never_interfere wary_blindFor halike []
  exact ⟨wary_blindFor, halike, hfixes, hanswer, (hstay hfixes).2⟩

/-- An update that leaves no history. -/
def oblivion : Data := [("eventHistory", .list [])]

/-- A session with a handler that makes this update. -/
def forgetful : Session Unit :=
  { idle with
    player :=
      { Player.idle with
        registry :=
          [("forget", .custom fun _ _ => Task.step fun p =>
            ((p.1.update oblivion).1.map fun () => .null, ((p.1.update oblivion).2, p.2)))] } }

/-- An event that forgets what happened. -/
def forgetting : Event :=
  { Event.blank with actions := [⟨"forget", "forget", [], none, none, []⟩] }

/-- A world in which there were meals and nothing else. -/
def wellFed : World Unit :=
  { World.fresh with state := { GameState.initial with history := meals } }

/-- Two in the morning on the first day of the calendar, five hours ahead of UTC. -/
def firstNight : Clock := ⟨⟨7200000000, by decide⟩, 300⟩

/-- A world with a supper that was stamped by its clock. -/
def stampedWorld : World Unit :=
  { World.fresh with
    state := { GameState.initial with history := [⟨"supper", firstNight.now, .success⟩] }
    clock := firstNight
    recent := 1 }

/-- It is not enough that the handlers do not see the entries of other events: these entries do not
stay if a handler replaces the history. Nor is it enough that the event's own entries read the same:
one that was stamped by the clock can be told from a copy of it at the edge of the calendar, where
the copy cannot be moved to the zone of the clock. -/
theorem blindness_is_not_enough :
    (forgetful.player.BlindFor forgetting ∧
      ¬∀ w v : World Unit, w.AlikeFor "blank" v →
        ((forgetful.execute forgetting []).run w).2.others "blank" = w.others "blank" ∧
          ((forgetful.execute forgetting []).run v).2.others "blank" = v.others "blank") ∧
      idle.player.BlindFor Event.supper ∧
      ((idle.execute Event.supper []).run stampedWorld).1 = some (.ok .cancelled) ∧
      ((idle.execute Event.supper []).run { stampedWorld with recent := 0 }).1 =
        some (.error .timeOutOfRange) := by
  refine ⟨⟨?_, ?_⟩, ⟨⟨nofun, nofun⟩, nofun⟩, by decide +kernel, by decide +kernel⟩
  · refine ⟨⟨nofun, nofun⟩, ?_⟩
    intro tag run hrun a
    obtain ⟨-, rfl⟩ : tag = "forget" ∧ run = _ := by simpa [forgetful] using hrun
    refine .step fun p q h => ?_
    have hupdate := h.1.update oblivion
    exact ⟨congrArg (Except.map fun () => Value.null) hupdate.1, hupdate.2, h.2⟩
  · intro hclaim
    have hstay := (hclaim wellFed wellFed (.refl _ _)).1
    have hgone : ((forgetful.execute forgetting []).run wellFed).2.others "blank" = [] := by
      decide +kernel
    rw [hgone] at hstay
    exact absurd hstay (by decide)

end Session

end MapEvents
