import MapEvents.Action.Standard
import MapEvents.Event.Basic
import MapEvents.World
/-!
# Handlers of actions

A registry maps the tags of actions to handlers: standard actions, or custom handlers that a game
brings along. An action whose tag has no handler is reported and succeeds, so that events written
for a newer game run on an older one.
-/

namespace MapEvents

/-- What runs an action. -/
inductive Handler (σ : Type) where
  | standard (a : StandardAction)
  /-- Answers with null or the name of an outcome. -/
  | custom (run : Event → Action → Work σ Value)

/-- Handlers by tag. -/
abbrev Registry (σ : Type) := List (String × Handler σ)

namespace Registry

variable {σ : Type}

/-- The standard actions. -/
def standard : Registry σ := StandardAction.all.map fun a => (a.tag, .standard a)

/-- The registry with one handler added or replaced. -/
def insert (r : Registry σ) (tag : String) (h : Handler σ) : Registry σ := Fields.insert tag h r

/-- The handler of a tag. -/
def handler? (r : Registry σ) (tag : String) : Option (Handler σ) := Fields.find? tag r

/-- The tags that have a handler. -/
def tags (r : Registry σ) : List String := r.map (·.1)

/-- Runs a standard action. -/
def runStandard (s : Surroundings σ) (a : StandardAction) (params : Data) : Work σ Outcome :=
  let performed := Task.step fun ((w, d) : Scene σ) =>
    let (state, r) := a.perform params w.state
    (r, ({ w with state }, d))
  performed.andThen fun
    | none => .done (.ok .success)
    | some request => (s.ask request).andThen fun reply => .done (Outcome.ofReply reply)

/-- Runs a custom handler, and notes the call before. -/
def runCustom (run : Event → Action → Work σ Value) (event : Event) (a : Action) :
    Work σ Outcome :=
  .act (fun (w, d) => (w.note (.handler a.type event.id a.id d), d)) fun _ =>
    (run event a).andThen fun reply => .done (Outcome.ofReply reply)

/-- Runs the handler of an action. -/
def dispatch (r : Registry σ) (s : Surroundings σ) (event : Event) (a : Action) :
    Work σ Outcome :=
  match r.handler? a.type with
  | none => .act (fun (w, d) => (w.note (.unhandled a.type), d)) fun _ => .done (.ok .success)
  | some (.standard std) => runStandard s std a.params
  | some (.custom run) => runCustom run event a

end Registry

end MapEvents
