import MapEvents.State.Basic
/-!
# The life of an execution

An execution of an event passes through phases. It ends when its trigger is refused, when its repeat
policy refuses it, when its actions finish, or when they crash. Only a finished execution goes into
the history. `Execution.take?` takes a transition, and `Execution.settle?` takes one that ends the
execution and fixes its outcome.
-/

namespace MapEvents

/-- A phase of an execution. -/
inductive Phase where
  | notStarted
  | conditionsChecked
  | repeatChecked
  | executing
  | completed
  deriving DecidableEq

/-- All phases. -/
def Phase.all : List Phase :=
  [.notStarted, .conditionsChecked, .repeatChecked, .executing, .completed]

/-- Name of a phase. -/
def Phase.name : Phase → String
  | .notStarted => "not_started"
  | .conditionsChecked => "conditions_checked"
  | .repeatChecked => "repeat_checked"
  | .executing => "executing"
  | .completed => "completed"

/-- A step from one phase to another. -/
inductive Transition where
  | conditionsPassed
  | repeatPassed
  | begin
  | finish
  | triggerBlocked
  | policyBlocked
  | crash
  deriving DecidableEq

namespace Transition

/-- All transitions. -/
def all : List Transition :=
  [conditionsPassed, repeatPassed, begin, finish, triggerBlocked, policyBlocked, crash]

/-- Name of the transition. -/
def name : Transition → String
  | conditionsPassed => "conditions_passed"
  | repeatPassed => "repeat_passed"
  | begin => "begin"
  | finish => "finish"
  | triggerBlocked => "trigger_blocked"
  | policyBlocked => "policy_blocked"
  | crash => "crash"

/-- The transition of this name. -/
def ofName? (s : String) : Option Transition := all.find? (·.name = s)

/-- Phase that the transition leaves. -/
def source : Transition → Phase
  | conditionsPassed => .notStarted
  | repeatPassed => .conditionsChecked
  | begin => .repeatChecked
  | finish => .executing
  | triggerBlocked => .notStarted
  | policyBlocked => .conditionsChecked
  | crash => .executing

/-- Phase that the transition enters. -/
def target : Transition → Phase
  | conditionsPassed => .conditionsChecked
  | repeatPassed => .repeatChecked
  | begin => .executing
  | finish => .completed
  | triggerBlocked => .completed
  | policyBlocked => .completed
  | crash => .completed

/-- Whether an execution that ends by this transition goes into the history; none for transitions
that do not end one. -/
def recorded? : Transition → Option Bool
  | finish => some true
  | triggerBlocked => some false
  | policyBlocked => some false
  | crash => some false
  | _ => none

end Transition

/-- An execution of an event. -/
structure Execution where
  /-- Id of the event. -/
  event : String
  phase : Phase
  /-- Phases visited, oldest first. -/
  trail : List Phase
  outcome : Option Outcome
  /-- Whether the execution goes into the history. -/
  recorded : Bool
  deriving DecidableEq

namespace Execution

/-- An execution that has not started. -/
def start (event : String) : Execution :=
  { event
    phase := .notStarted
    trail := [.notStarted]
    outcome := none
    recorded := false }

/-- Takes a transition if it leaves the current phase. -/
def take? (e : Execution) (t : Transition) : Option Execution :=
  if t.source = e.phase then
    some { e with phase := t.target, trail := e.trail ++ [t.target] }
  else
    none

/-- Takes a transition that ends executions, with an outcome, if it leaves the current phase. -/
def settle? (e : Execution) (t : Transition) (outcome : Outcome) : Option Execution := do
  let recorded ← t.recorded?
  let e ← e.take? t
  return { e with outcome := some outcome, recorded }

/-- Takes a transition that the caller knows to be possible; otherwise nothing changes. -/
def go (e : Execution) (t : Transition) : Execution := (e.take? t).getD e

/-- Ends the execution by a transition that the caller knows to be possible. -/
def close (e : Execution) (t : Transition) (outcome : Outcome) : Execution :=
  (e.settle? t outcome).getD e

/-- An execution whose conditions hold. -/
def checked (event : String) : Execution := (start event).go .conditionsPassed

/-- An execution whose actions are running. -/
def running (event : String) : Execution := ((checked event).go .repeatPassed).go .begin

end Execution

end MapEvents
