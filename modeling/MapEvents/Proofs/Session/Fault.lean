import MapEvents.Proofs.Session.Ending
import MapEvents.Proofs.Trigger.Daily
/-!
# When an execution ends with a fault

What goes wrong inside a chain is an outcome of the execution. The checks before it are not guarded
in this way: the conditions always answer if the hook for custom ones does, but a daily policy does
not if it cannot tell the day of an earlier entry. Such an execution ends with a fault and is left
in its second phase without an outcome, and a state that was read without an issue may bring this
about.
-/

namespace MapEvents

variable {σ : Type}

namespace Session

variable {s : Session σ} {event : Event} {before : World σ}

/-- A fault of the checks is the end of the execution. -/
theorem run_execute_of_fault {fault : Fault} {after : World σ}
    (h : s.screen event before = (.error fault, after)) (data : Data) :
    (s.execute event data).run before = (some (.error fault), after) := by
  simp only [execute, Task.andThen, Task.run_bind, Task.run_step, h, Task.run]

/-- The trigger's conditions hold, and then the repeat policy is daily and comes to an entry of the
event whose day the clock cannot tell. -/
def Stumbles (s : Session σ) (event : Event) (w : World σ) : Prop :=
  s.triggerHolds event w = .ok true ∧ event.Daily ∧
    RepeatPolicy.Untold event.id w.clock w.recent w.state.history

/-- An execution stumbles exactly if the trigger holds and the repeat policy cannot be decided. -/
theorem stumbles_iff :
    s.Stumbles event before ↔ s.triggerHolds event before = .ok true ∧
      ∃ fault, repeatAllows event before = .error fault := by
  rw [Stumbles, repeatAllows, Event.mayRepeat_fault_iff]

/-- An execution ends with an outcome, and the session shows it in its last phase with this
outcome. -/
def Completes (s : Session σ) (event : Event) (data : Data) (before : World σ) : Prop :=
  ∃ outcome after e, (s.execute event data).run before = (some (.ok outcome), after) ∧
    after.execution = some e ∧ e.phase = .completed ∧ e.outcome = some outcome

/-- An execution that stumbles ends with a fault. It is left in its second phase without an outcome,
and nothing in the game has changed. -/
def Breaks (s : Session σ) (event : Event) (data : Data) (before : World σ) : Prop :=
  ∃ fault after, (s.execute event data).run before = (some (.error fault), after) ∧
    after.execution = some (.checked event.id) ∧ before.AfterChecks after

/-- An execution that stumbles breaks, whatever data it is given. -/
theorem breaks_of_stumbles (h : s.Stumbles event before) (data : Data) :
    s.Breaks event data before := by
  obtain ⟨htrigger, fault, hrepeat⟩ := stumbles_iff.mp h
  refine ⟨fault, _, run_execute_of_fault (screen_of_repeat_fault htrigger hrepeat) data, rfl, ?_⟩
  exact (triggerChecked_afterChecks s event before).showing _

/-- An execution that ends in one of the four ways is completed. -/
theorem completes_of_endsBy {data : Data} {ending : Ending}
    (h : s.EndsBy event data before ending) : s.Completes event data before := by
  obtain ⟨after, hrun, hexecution, -⟩ := h
  exact ⟨ending.outcome, after, ending.execution event.id, hrun, hexecution, rfl, rfl⟩

/-- If the hook answers, an execution ends with a fault exactly if it stumbles, and then it breaks;
every other execution is completed, unless its chain hangs. Hook and resolver look at the game state
and never write it, and a stamp without zone is one of the host's own, taken to be UTC. -/
theorem execute_faults_iff (s : Session σ) (hhook : s.player.surroundings.HookAnswers)
    (event : Event) (data : Data) (before : World σ) :
    ((∃ fault after, (s.execute event data).run before = (some (.error fault), after)) ↔
        s.Stumbles event before) ∧
      (s.Stumbles event before → s.Breaks event data before) ∧
      (¬s.Stumbles event before → s.Hangs event data before ∨ s.Completes event data before) := by
  have hends : ¬s.Stumbles event before →
      s.Hangs event data before ∨ ∃ ending, s.EndsBy event data before ending := by
    intro hnot
    refine exists_ending s event data before (Condition.checkAll_ne_error hhook _ before) ?_
    intro htrigger fault hrepeat
    exact hnot (stumbles_iff.mpr ⟨htrigger, fault, hrepeat⟩)
  refine ⟨⟨?_, ?_⟩, fun h => breaks_of_stumbles h data, fun hnot => ?_⟩
  · rintro ⟨fault, after, hrun⟩
    by_contra hnot
    rcases hends hnot with ⟨-, stop, -, hhang⟩ | ⟨ending, after', hdone, -⟩
    · rw [hhang] at hrun
      cases hrun
    · rw [hdone] at hrun
      cases hrun
  · intro h
    obtain ⟨fault, after, hrun, -⟩ := breaks_of_stumbles h data
    exact ⟨fault, after, hrun⟩
  · exact (hends hnot).imp_right fun ⟨ending, h⟩ => completes_of_endsBy h

/-- An event that fires once a day. -/
def dawn : Event :=
  { Event.blank with id := "dawn", trigger := ⟨.interact, [], some ⟨.daily, none⟩⟩ }

/-- A saved game in which the event fired at the very start of the calendar. -/
def firstDawn : Value :=
  .obj [("eventHistory", .list [.obj [("eventId", .str "dawn"),
    ("timestamp", .str "0001-01-01T00:00:00+00:00"), ("result", .str "success")]])]

/-- The saved game, at noon five hours west. -/
def westOfDawn : World Unit :=
  { World.fresh with
    state := { GameState.initial with history := [⟨"dawn", ⟨⟨0, by decide⟩, some 0⟩, .success⟩] }
    clock := { Clock.start with offset := -300 } }

/-- An entry from the first moment of the calendar breaks an execution in a zone west of it. -/
theorem dawn_execution_breaks :
    idle.player.surroundings.HookAnswers ∧ idle.Stumbles dawn westOfDawn ∧
      idle.Breaks dawn [] westOfDawn := by
  have hhook : idle.player.surroundings.HookAnswers := by
    intro hook hsome
    cases hsome
  have hrun : (idle.execute dawn []).run westOfDawn =
      (some (.error .timeOutOfRange), ((idle.execute dawn []).run westOfDawn).2) := rfl
  have hstumbles : idle.Stumbles dawn westOfDawn :=
    (execute_faults_iff idle hhook dawn [] westOfDawn).1.mp ⟨_, _, hrun⟩
  exact ⟨hhook, hstumbles, (execute_faults_iff idle hhook dawn [] westOfDawn).2.1 hstumbles⟩

/-- A game that was read without an issue, without a hook: west of Greenwich the start of the
calendar has no place, and the execution ends with a fault. -/
theorem dawn_faults :
    GameState.read firstDawn = .ok westOfDawn.state ∧ idle.player.surroundings.hook = none ∧
      ((idle.execute dawn []).run westOfDawn).1 = some (.error .timeOutOfRange) := by
  refine ⟨?_, rfl, rfl⟩
  decide +kernel

end Session

end MapEvents
