import MapEvents.Proofs.Chain.Visit
import MapEvents.Proofs.Condition.Frame
import MapEvents.Session.Execute
/-!
# The two checks of an execution

The trigger's conditions are checked first and then the repeat policy. What the checks ask of the
hook and of the random source does not touch what the policy looks at, so whether the policy allows
the event can be read off the world before both.
-/

namespace MapEvents

variable {σ : Type}

namespace Session

/-- Whether the conditions of the event's trigger hold. -/
def triggerHolds (s : Session σ) (event : Event) (w : World σ) : Except Fault Bool :=
  (Condition.checkAll s.player.surroundings event.trigger.conditions w).1

/-- The world after the conditions of the event's trigger were checked. -/
def triggerChecked (s : Session σ) (event : Event) (w : World σ) : World σ :=
  (Condition.checkAll s.player.surroundings event.trigger.conditions w).2

/-- Whether the repeat policy lets the event fire in this world. -/
def repeatAllows (event : Event) (w : World σ) : Except Fault Bool :=
  event.mayRepeat w.state.history w.recent w.clock

/-- The event passes both checks. -/
def Admits (s : Session σ) (event : Event) (w : World σ) : Prop :=
  s.triggerHolds event w = .ok true ∧ repeatAllows event w = .ok true

/-- The world in which the chain of an event starts, once the event is admitted. -/
def chainStart (s : Session σ) (event : Event) (w : World σ) : World σ :=
  (s.triggerChecked event w).showing (.running event.id)

variable {s : Session σ} {event : Event} {before : World σ}

/-- Checking the trigger does to the world what checks do. -/
theorem triggerChecked_afterChecks (s : Session σ) (event : Event) (before : World σ) :
    before.AfterChecks (s.triggerChecked event before) :=
  Condition.checkAll_afterChecks _ _ before

/-- The trigger's conditions leave alone what the repeat policy looks at. -/
theorem repeatAllows_triggerChecked (s : Session σ) (event : Event) (before : World σ) :
    repeatAllows event (s.triggerChecked event before) = repeatAllows event before := by
  have hchecked := triggerChecked_afterChecks s event before
  unfold repeatAllows
  rw [hchecked.state, hchecked.recent, hchecked.clock]

/-! ## The screening, by what the checks give -/

/-- A fault of the trigger's conditions leaves the execution at its start. -/
theorem screen_of_trigger_fault {fault : Fault}
    (h : s.triggerHolds event before = .error fault) :
    s.screen event before =
      (.error fault, (s.triggerChecked event before).showing (.start event.id)) := by
  unfold screen
  rw [show Condition.checkAll s.player.surroundings event.trigger.conditions before =
    (.error fault, s.triggerChecked event before) from Prod.ext h rfl]

/-- A trigger that does not hold fails the event. -/
theorem screen_of_trigger_refused (h : s.triggerHolds event before = .ok false) :
    s.screen event before =
      (.ok (some .failed), (s.triggerChecked event before).showing
        ((Execution.start event.id).close .triggerBlocked .failed)) := by
  unfold screen
  rw [show Condition.checkAll s.player.surroundings event.trigger.conditions before =
    (.ok false, s.triggerChecked event before) from Prod.ext h rfl]

/-- Behind a trigger that holds, the repeat policy decides. -/
theorem screen_of_trigger_holds (h : s.triggerHolds event before = .ok true) :
    s.screen event before = screenRepeat event (s.triggerChecked event before) := by
  unfold screen
  rw [show Condition.checkAll s.player.surroundings event.trigger.conditions before =
    (.ok true, s.triggerChecked event before) from Prod.ext h rfl]

/-- A fault of the repeat policy leaves the execution with its conditions checked. -/
theorem screen_of_repeat_fault {fault : Fault} (htrigger : s.triggerHolds event before = .ok true)
    (hrepeat : repeatAllows event before = .error fault) :
    s.screen event before =
      (.error fault, (s.triggerChecked event before).showing (.checked event.id)) := by
  rw [← repeatAllows_triggerChecked s, repeatAllows] at hrepeat
  rw [screen_of_trigger_holds htrigger, screenRepeat, hrepeat]

/-- A repeat policy that refuses cancels the event. -/
theorem screen_of_repeat_refused (htrigger : s.triggerHolds event before = .ok true)
    (hrepeat : repeatAllows event before = .ok false) :
    s.screen event before =
      (.ok (some .cancelled), (s.triggerChecked event before).showing
        ((Execution.checked event.id).close .policyBlocked .cancelled)) := by
  rw [← repeatAllows_triggerChecked s, repeatAllows] at hrepeat
  rw [screen_of_trigger_holds htrigger, screenRepeat, hrepeat]

/-- An admitted event is let through, and its execution runs. -/
theorem screen_of_admits (h : s.Admits event before) :
    s.screen event before = (.ok none, s.chainStart event before) := by
  obtain ⟨htrigger, hrepeat⟩ := h
  rw [← repeatAllows_triggerChecked s, repeatAllows] at hrepeat
  rw [screen_of_trigger_holds htrigger, screenRepeat, hrepeat, chainStart]

/-- Screening shows how far the execution has come, and is otherwise all checks. -/
theorem screen_afterChecks (s : Session σ) (event : Event) (before : World σ) :
    before.AfterChecks (s.screen event before).2 := by
  have hchecked := triggerChecked_afterChecks s event before
  rcases htrigger : s.triggerHolds event before with fault | _ | _
  · rw [screen_of_trigger_fault htrigger]
    exact hchecked.showing _
  · rw [screen_of_trigger_refused htrigger]
    exact hchecked.showing _
  · rcases hrepeat : repeatAllows event before with fault | _ | _
    · rw [screen_of_repeat_fault htrigger hrepeat]
      exact hchecked.showing _
    · rw [screen_of_repeat_refused htrigger hrepeat]
      exact hchecked.showing _
    · rw [screen_of_admits ⟨htrigger, hrepeat⟩]
      exact hchecked.showing _

/-- Only an event that passes both checks goes on to its chain. -/
theorem admits_of_screen (h : (s.screen event before).1 = .ok none) : s.Admits event before := by
  rcases htrigger : s.triggerHolds event before with fault | _ | _
  · rw [screen_of_trigger_fault htrigger] at h
    cases h
  · rw [screen_of_trigger_refused htrigger] at h
    cases h
  · rcases hrepeat : repeatAllows event before with fault | _ | _
    · rw [screen_of_repeat_fault htrigger hrepeat] at h
      cases h
    · rw [screen_of_repeat_refused htrigger hrepeat] at h
      cases h
    · exact ⟨htrigger, hrepeat⟩

end Session

/-! ## Samples -/

/-- A session without handlers, whose chains have two steps. -/
def Session.idle : Session Unit :=
  { player := .idle
    stepLimit := some 2
    timeLimit := none }

end MapEvents
