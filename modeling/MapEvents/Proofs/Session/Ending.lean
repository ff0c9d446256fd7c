import Mathlib.Logic.ExistsUnique
import MapEvents.Proofs.Session.Screen
import MapEvents.Proofs.Task.Laws
/-!
# How an execution ends

An execution whose two checks give an answer ends in one of four ways: the trigger refuses it, the
repeat policy refuses it, its chain finishes, or its chain crashes. The answer of the session does
not tell them apart, since a failure may come from three of them. `Ending.Happens` says for each
what brings it about and what it leaves behind: a refused event changes nothing in the game, a
finished one adds one entry to the history, and a crashed one adds none.

A chain that hangs keeps its execution from ending; nothing else does.
-/

namespace MapEvents

variable {σ : Type}

/-- How an execution ended. -/
inductive Ending where
  | triggerRefused
  | repeatRefused
  /-- The chain gave an outcome. -/
  | finished (outcome : Outcome)
  /-- The chain gave a fault. -/
  | crashed (fault : Fault)

namespace Ending

/-- The outcome that the session reports. -/
def outcome : Ending → Outcome
  | triggerRefused => .failed
  | repeatRefused => .cancelled
  | finished o => o
  | crashed _ => .failed

/-- The phases that the execution has visited. -/
def trail : Ending → List Phase
  | triggerRefused => [.notStarted, .completed]
  | repeatRefused => [.notStarted, .conditionsChecked, .completed]
  | finished _ => Phase.all
  | crashed _ => Phase.all

/-- Whether the execution went into the history. -/
def recorded : Ending → Bool
  | finished _ => true
  | _ => false

/-- The execution that the session shows in the end. -/
def execution (event : String) (e : Ending) : Execution :=
  { event
    phase := .completed
    trail := e.trail
    outcome := some e.outcome
    recorded := e.recorded }

end Ending

/-- What brings an ending about, and what it leaves behind. -/
def Ending.Happens (s : Session σ) (event : Event) (data : Data) (before after : World σ) :
    Ending → Prop
  | .triggerRefused =>
    s.triggerHolds event before = .ok false ∧ before.AfterChecks after
  | .repeatRefused =>
    s.triggerHolds event before = .ok true ∧ Session.repeatAllows event before = .ok false ∧
      before.AfterChecks after
  | .finished o =>
    s.Admits event before ∧ ∃ stop,
      (s.runActions event data).run (s.chainStart event before) = (some (.ok o), stop) ∧
        after.state = stop.state.record ⟨event.id, stop.clock.now, o⟩ ∧
        after.journal = stop.journal
  | .crashed fault =>
    s.Admits event before ∧ ∃ stop,
      (s.runActions event data).run (s.chainStart event before) = (some (.error fault), stop) ∧
        after.state = stop.state ∧ after.journal = .crash event.id :: stop.journal

namespace Session

/-- The execution ends this way: what the session answers, what it shows, and what happens. -/
def EndsBy (s : Session σ) (event : Event) (data : Data) (before : World σ) (ending : Ending) :
    Prop :=
  ∃ after : World σ,
    (s.execute event data).run before = (some (.ok ending.outcome), after) ∧
      after.execution = some (ending.execution event.id) ∧
      ending.Happens s event data before after

/-- The event is admitted, and the execution hangs because its chain does. -/
def Hangs (s : Session σ) (event : Event) (data : Data) (before : World σ) : Prop :=
  s.Admits event before ∧ ∃ stop : World σ,
    (s.runActions event data).run (s.chainStart event before) = (none, stop) ∧
      (s.execute event data).run before = (none, stop)

variable {s : Session σ} {event : Event} {before : World σ}

/-! ## The execution, by what the checks give -/

/-- An event that is refused ends with the outcome of its refusal, and runs no action. -/
theorem run_execute_of_refused {o : Outcome} {after : World σ}
    (h : s.screen event before = (.ok (some o), after)) (data : Data) :
    (s.execute event data).run before = (some (.ok o), after) := by
  simp only [execute, Task.andThen, Task.run_bind, Task.run_step, h, Task.run]

/-- An admitted event ends when its chain does. -/
theorem run_execute_of_chain {data : Data} {r : Except Fault Outcome} {stop : World σ}
    (h : s.Admits event before)
    (hrun : (s.runActions event data).run (s.chainStart event before) = (some r, stop)) :
    (s.execute event data).run before =
      (some (.ok (conclude event r stop).1), (conclude event r stop).2) := by
  simp only [execute, Task.andThen, Task.run_bind, Task.run_step, screen_of_admits h, hrun,
    Task.map, Task.run]

/-- An admitted event hangs when its chain does. -/
theorem run_execute_of_hang {data : Data} {stop : World σ} (h : s.Admits event before)
    (hrun : (s.runActions event data).run (s.chainStart event before) = (none, stop)) :
    (s.execute event data).run before = (none, stop) := by
  simp only [execute, Task.andThen, Task.run_bind, Task.run_step, screen_of_admits h, hrun]

/-! ## The four endings -/

/-- The chain of an admitted event ended. -/
theorem exists_endsBy_of_chain {data : Data} {r : Except Fault Outcome} {stop : World σ}
    (h : s.Admits event before)
    (hrun : (s.runActions event data).run (s.chainStart event before) = (some r, stop)) :
    ∃ ending, s.EndsBy event data before ending := by
  have hexecute := run_execute_of_chain h hrun
  cases r with
  | ok o => exact ⟨.finished o, _, hexecute, rfl, h, stop, hrun, rfl, rfl⟩
  | error fault => exact ⟨.crashed fault, _, hexecute, rfl, h, stop, hrun, rfl, rfl⟩

/-- The ending that the answers of the two checks and of the chain lead to. -/
def endingOf (trigger repeats : Except Fault Bool) (chain : Option (Except Fault Outcome)) :
    Option Ending :=
  match trigger, repeats, chain with
  | .ok false, _, _ => some .triggerRefused
  | .ok true, .ok false, _ => some .repeatRefused
  | .ok true, .ok true, some (.ok o) => some (.finished o)
  | .ok true, .ok true, some (.error fault) => some (.crashed fault)
  | _, _, _ => none

/-- An execution ends the way that the answers lead to. -/
theorem endingOf_of_endsBy {data : Data} {ending : Ending} (h : s.EndsBy event data before ending) :
    endingOf (s.triggerHolds event before) (repeatAllows event before)
      ((s.runActions event data).run (s.chainStart event before)).1 = some ending := by
  obtain ⟨after, -, -, hhappens⟩ := h
  cases ending with
  | triggerRefused =>
    obtain ⟨htrigger, -⟩ := hhappens
    rw [htrigger]
    rfl
  | repeatRefused =>
    obtain ⟨htrigger, hrepeat, -⟩ := hhappens
    rw [htrigger, hrepeat]
    rfl
  | finished o =>
    obtain ⟨⟨htrigger, hrepeat⟩, stop, hrun, -⟩ := hhappens
    rw [htrigger, hrepeat, hrun]
    rfl
  | crashed fault =>
    obtain ⟨⟨htrigger, hrepeat⟩, stop, hrun, -⟩ := hhappens
    rw [htrigger, hrepeat, hrun]
    rfl

/-- The chain of an admitted event hangs, or the execution ends. -/
theorem exists_ending (s : Session σ) (event : Event) (data : Data) (before : World σ)
    (htrigger : ∀ fault, s.triggerHolds event before ≠ .error fault)
    (hrepeat : s.triggerHolds event before = .ok true →
      ∀ fault, repeatAllows event before ≠ .error fault) :
    s.Hangs event data before ∨ ∃ ending, s.EndsBy event data before ending := by
  have hchecked := triggerChecked_afterChecks s event before
  rcases ht : s.triggerHolds event before with fault | _ | _
  · exact absurd ht (htrigger fault)
  · have hexecute := run_execute_of_refused (screen_of_trigger_refused ht) data
    exact .inr ⟨.triggerRefused, _, hexecute, rfl, ht, hchecked.showing _⟩
  · rcases hr : repeatAllows event before with fault | _ | _
    · exact absurd hr (hrepeat ht fault)
    · have hexecute := run_execute_of_refused (screen_of_repeat_refused ht hr) data
      exact .inr ⟨.repeatRefused, _, hexecute, rfl, ht, hr, hchecked.showing _⟩
    · rcases hrun : (s.runActions event data).run (s.chainStart event before) with ⟨_ | r, stop⟩
      · exact .inl ⟨⟨ht, hr⟩, stop, hrun, run_execute_of_hang ⟨ht, hr⟩ hrun⟩
      · exact .inr (exists_endsBy_of_chain ⟨ht, hr⟩ hrun)

/-- If neither check raises a fault, an execution ends in exactly one of the four ways, unless its
event is admitted and its chain hangs. Hook and resolver look at the game state but never write
it. -/
theorem execute_ends_in_one_way (s : Session σ) (event : Event) (data : Data) (before : World σ)
    (htrigger : ∀ fault, s.triggerHolds event before ≠ .error fault)
    (hrepeat : s.triggerHolds event before = .ok true →
      ∀ fault, repeatAllows event before ≠ .error fault) :
    s.Hangs event data before ∨ ∃! ending, s.EndsBy event data before ending := by
  rcases exists_ending s event data before htrigger hrepeat with hhangs | ⟨ending, hends⟩
  · exact .inl hhangs
  · refine .inr ⟨ending, hends, ?_⟩
    intro other hother
    have hsame := (endingOf_of_endsBy hother).symm.trans (endingOf_of_endsBy hends)
    exact Option.some.inj hsame

/-- An event whose chain goes round in a loop. -/
def roundabout : Event :=
  { Event.blank with actions := [.passage "here" ["there"] none, .passage "there" ["here"] none] }

/-- An event whose chain is cut off by the step limit ends in exactly one way. -/
theorem roundabout_ends_in_one_way :
    idle.triggerHolds roundabout World.fresh = .ok true ∧
      repeatAllows roundabout World.fresh = .ok true ∧
      ∃! ending, idle.EndsBy roundabout [] World.fresh ending := by
  have htrigger : idle.triggerHolds roundabout World.fresh = .ok true := rfl
  have hrepeat : repeatAllows roundabout World.fresh = .ok true := rfl
  have hends := execute_ends_in_one_way idle roundabout [] World.fresh
    (by simp [htrigger]) (by simp [hrepeat])
  refine ⟨htrigger, hrepeat, hends.resolve_left ?_⟩
  rintro ⟨-, stop, -, hexecute⟩
  have hanswer : ((idle.execute roundabout []).run World.fresh).1 = some (.ok .failed) := rfl
  rw [hexecute] at hanswer
  cases hanswer

end Session

end MapEvents
