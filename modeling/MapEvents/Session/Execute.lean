import MapEvents.Chain.Walk
import MapEvents.Trigger.Repeat
/-!
# Executing events

A session executes an event in the order of its life: the trigger's conditions are checked, then the
repeat policy, then the chain of actions runs. A refused event leaves the state alone. A chain that
ends with an outcome is recorded in the history with the clock's reading at its end; a chain that
ends with a fault, or takes too long, is reported as failed and not recorded. A fault of the two
checks themselves ends the execution where it stands. The session follows the execution itself and
shows in the world how far it has come, so that what the actions do cannot change it.

A trigger fires every enabled event of its kind, one after another, highest priority first.
-/

namespace MapEvents

/-- What a session is run with. -/
structure Session (σ : Type) where
  player : Player σ
  /-- Most steps of one chain. -/
  stepLimit : Option Int
  /-- Longest time of one chain, in seconds. -/
  timeLimit : Option Double

namespace Session

variable {σ : Type}

/-- Checks the repeat policy of an event whose conditions hold. Gives the outcome of an event that
is refused. -/
def screenRepeat (event : Event) (w : World σ) : Except Fault (Option Outcome) × World σ :=
  let e := Execution.checked event.id
  match event.mayRepeat w.state.history w.recent w.clock with
  | .error fault => (.error fault, w.showing e)
  | .ok false => (.ok (some .cancelled), w.showing (e.close .policyBlocked .cancelled))
  | .ok true => (.ok none, w.showing (.running event.id))

/-- Starts an execution and checks whether the event may run. Gives the outcome of an event that is
refused. -/
def screen (s : Session σ) (event : Event) (w : World σ) :
    Except Fault (Option Outcome) × World σ :=
  let e := Execution.start event.id
  match Condition.checkAll s.player.surroundings event.trigger.conditions w with
  | (.error fault, w) => (.error fault, w.showing e)
  | (.ok false, w) => (.ok (some .failed), w.showing (e.close .triggerBlocked .failed))
  | (.ok true, w) => screenRepeat event w

/-- Ends the execution of an event whose chain ended. -/
def conclude (event : Event) : Except Fault Outcome → World σ → Outcome × World σ
  | .ok o, w =>
    (o, (w.showing ((Execution.running event.id).close .finish o)).record event.id o)
  | .error _, w =>
    (.failed, (w.note (.crash event.id)).showing
      ((Execution.running event.id).close .crash .failed))

/-- Limits up to a millionth of a second are over before a chain is resumed for the second time. -/
def shortLimit : Double := .ofRatio false 1 1000000

/-- A chain under a time limit. The chain starts after a suspension; a limit that is not positive is
over by then. A short limit, or one that is not a number, lapses at the chain's second suspension,
and a longer one cuts off a chain that hangs. Both can do so only once the chain has suspended
itself: a chain that never does is not interrupted, however long it takes. -/
def limited {W α : Type} (limit : Option Double) (chain : Task W (Except Fault α)) :
    Task W (Except Fault α) :=
  match limit with
  | none => chain
  | some x =>
    .pause <|
      if x.le .zero then .done (.error .timeLimit)
      else chain.afterPause fun rest =>
        if shortLimit.lt x then rest.unlessHung (.error .timeLimit)
        else rest.within (.error .timeLimit) 0

/-- Runs the actions of an admitted event, with the trigger data as they were given. -/
def runActions (s : Session σ) (event : Event) (data : Data) :
    Task (World σ) (Except Fault Outcome) :=
  limited s.timeLimit <|
    ((Chain.runChain s.player event event.actions s.stepLimit).withLocal data).map (·.1)

/-- Executes an event. -/
def execute (s : Session σ) (event : Event) (data : Data) :
    Task (World σ) (Except Fault Outcome) :=
  (Task.step (s.screen event)).andThen fun
    | some refused => .done (.ok refused)
    | none => (s.runActions event data).bind fun r =>
      (Task.step (conclude event r)).map .ok

/-- The events that a trigger fires: enabled ones of the kind, highest priority first; events of one
priority keep their order. -/
def fired (events : List Event) (kind : String) : List Event :=
  (events.filter fun e => e.enabled && e.trigger.kind.name = kind).mergeSort
    fun a b => b.priority ≤ a.priority

/-- Executes events one after another, each with the same trigger data. -/
def executeAll (s : Session σ) (data : Data) :
    List Event → Task (World σ) (Except Fault (List (String × Outcome)))
  | [] => .done (.ok [])
  | event :: rest =>
    (s.execute event data).andThen fun o =>
      (executeAll s data rest).andThen fun os => .done (.ok ((event.id, o) :: os))

/-- Fires a trigger. -/
def dispatch (s : Session σ) (events : List Event) (kind : String) (data : Data) :
    Task (World σ) (Except Fault (List (String × Outcome))) :=
  s.executeAll data (fired events kind)

end Session

end MapEvents
