import MapEvents.Action.Request
import MapEvents.Condition.Basic
import MapEvents.Lifecycle
import MapEvents.State.Update
import MapEvents.Task
/-!
# The world of a session

A session owns a game state and a clock, keeps a journal of everything it asks of others, and knows
its latest execution. The `Surroundings` are what a session relies on: a random source, a hook for
custom conditions, a resolver for branches, and the host. Their memory, of type `σ`, is part of the
world too, so that whatever they answer may depend on what they were asked before. Hook and resolver
see the game state and do not change it; the host sees only its own memory, and may suspend.
-/

namespace MapEvents

/-- One thing that was asked or reported. -/
inductive Entry where
  /-- A custom handler was called. -/
  | handler (tag event action : String) (data : Data)
  /-- The host was asked. -/
  | host (request : Request)
  /-- The hook for custom conditions was asked. -/
  | hook (key : Option String) (value : Option Scalar)
  /-- The branch resolver was asked. -/
  | branch (condition : String)
  /-- A random number was drawn. -/
  | draw
  /-- An action had a tag without handler. -/
  | unhandled (tag : String)
  /-- The actions of an event crashed. -/
  | crash (event : String)

/-- The journal line of an entry that reports a problem: a level and a text. -/
def Entry.report? : Entry → Option (String × String)
  | .unhandled tag => some ("WARNING", s!"Unhandled action type: {tag}")
  | .crash event => some ("ERROR", s!"Event {event}: execution error")
  | _ => none

/-- What a session owns, and the memory of its surroundings. -/
structure World (σ : Type) where
  state : GameState
  clock : Clock
  /-- How many entries of the history, its last ones, were stamped since the clock was last set. -/
  recent : Nat
  /-- What was asked and reported, newest first. -/
  journal : List Entry
  /-- The latest execution. -/
  execution : Option Execution
  /-- Memory of the surroundings. -/
  outside : σ

namespace World

variable {σ : Type}

/-- The world with one more journal entry. -/
def note (w : World σ) (e : Entry) : World σ := { w with journal := e :: w.journal }

/-- The world with this as its latest execution. -/
def showing (e : Execution) (w : World σ) : World σ := { w with execution := some e }

/-- Sets the clock. -/
def setClock (clock : Clock) (w : World σ) : World σ := { w with clock, recent := 0 }

/-- Lets the clock show something else. In a clock of the same offset, which has only moved on, the
recent entries stay recent. -/
def turnTo (clock : Clock) (w : World σ) : World σ :=
  { w with clock, recent := if clock.offset = w.clock.offset then w.recent else 0 }

/-- Enters an outcome of an event into the history, stamped by the clock. -/
def record (event : String) (o : Outcome) (w : World σ) : World σ :=
  { w with
    state := w.state.record ⟨event, w.clock.now, o⟩
    recent := w.recent + 1 }

/-- Updates the game state; a refused update changes nothing. -/
def update (given : Data) (w : World σ) : Except Fault Unit × World σ :=
  match w.state.update given with
  | .ok state =>
    let replaced := given.any fun p => GameState.Field.ofKey? p.1 = some .history
    (.ok (), { w with state, recent := if replaced then 0 else w.recent })
  | .error fault => (.error fault, w)

end World

/-- What a session relies on. By their types, hook and resolver look at the game state and cannot
write it. -/
structure Surroundings (σ : Type) where
  /-- The random source: a double in `[0, 1)`. -/
  draw : σ → Double × σ
  /-- Decides custom conditions; without a hook they hold. -/
  hook : Option (Condition → GameState → σ → Except Fault Bool × σ)
  /-- Decides the conditions of branches; without a resolver they hold. -/
  resolver : Option (String → GameState → σ → Except Fault Bool × σ)
  /-- Answers requests. -/
  host : Request → Task σ (Except Fault Value)

/-- The world of a running chain: that of the session, and the chain's own trigger data. -/
abbrev Scene (σ : Type) := World σ × Data

/-- What a handler may look at and change while its chain runs. -/
abbrev Work (σ α : Type) := Task (Scene σ) (Except Fault α)

/-- Asks the host, and notes the request before. -/
def Surroundings.ask {σ : Type} (s : Surroundings σ) (r : Request) : Work σ Value :=
  .act (fun (w, d) => (w.note (.host r), d)) fun _ =>
    (s.host r).onPart (fun (w, _) => w.outside) fun o (w, d) => ({ w with outside := o }, d)

end MapEvents
