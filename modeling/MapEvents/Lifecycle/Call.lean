import MapEvents.Fault
import MapEvents.Lifecycle
/-!
# Calling transitions by name

An execution is told by name which transition to take. `Execution.advance` takes any transition: the
name may go on behind a point, and what stands there does not count. `Execution.resolve` takes a
transition that ends the execution and fixes its outcome; it needs the exact name. A call that is
refused changes nothing.

Names are shared with the parts of the execution itself, which are those of the machine that drives
it; `hasPart` tells them. A name that belongs to a part is refused as no transition at all, any
other name as a transition that is not possible.
-/

namespace MapEvents

namespace Transition

/-- The transition that a name calls: what stands before its first point is the transition's own
name. -/
def called? (name : String) : Option Transition :=
  ofName? (String.ofList (name.toList.takeWhile (· ≠ '.')))

end Transition

namespace Execution

/-- Tells which names belong to parts that an execution has by now. -/
abbrev Parts := Execution → String → Bool

/-- How a name that calls no possible transition is refused: as no transition at all if it belongs
to a part that the execution has. -/
def refusal (hasPart : Parts) (e : Execution) (name : String) : Fault :=
  if hasPart e name then .notTransition name else .notAllowed name

/-- Takes the transition that the name calls. -/
def advance (hasPart : Parts) (e : Execution) (name : String) : Except Fault Execution :=
  match (Transition.called? name).bind e.take? with
  | some e => .ok e
  | none => .error (e.refusal hasPart name)

/-- Takes the transition of this name, which has to end the execution, with an outcome. -/
def resolve (hasPart : Parts) (e : Execution) (name : String)
    (outcome : Outcome) : Except Fault Execution :=
  match (Transition.ofName? name).filter (·.recorded?.isSome) with
  | none => .error (.notTerminal name)
  | some t =>
    match e.settle? t outcome with
    | some e => .ok e
    | none => .error (e.refusal hasPart name)

end Execution

end MapEvents
