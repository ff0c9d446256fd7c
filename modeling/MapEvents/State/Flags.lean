import MapEvents.State.Shape
/-!
# Changing flags

A flag is set to a flag's value or null, deleted, or raised by a number. A flag that is absent or
counts as false is raised from the integer zero; true and false count as one and zero. A sum of
integers is an integer, and a sum with a double is a double.
-/

namespace MapEvents

namespace Flags

/-- What a flag is raised from; a text cannot be raised. -/
def base (key : String) : Option Scalar → Except Fault Number
  | none => .ok (.whole 0)
  | some v =>
    if v.truthy then
      match v with
      | .bool _ => .ok (.whole 1)
      | .int n => .ok (.whole n)
      | .float x => .ok (.real x)
      | .str _ => .error (.textFlag key)
    else .ok (.whole 0)

/-- The value of a raised flag. -/
def raised (key : String) (current : Option Scalar) (amount : Value) : Except Fault Scalar := do
  let a ← base key current
  let b ← Number.ofValue amount
  let sum ← a.plus b
  return sum.toScalar

end Flags

namespace GameState

/-- Sets a flag to a value, which must be one that a flag can hold. -/
def setFlag (s : GameState) (key : String) (value : Value) : Except Fault GameState :=
  match Shape.flag.read value with
  | .ok v => .ok { s with flags := Fields.insert key v s.flags }
  | .error issues => .error (.invalid issues)

/-- Raises a flag by a number. -/
def raiseFlag (s : GameState) (key : String) (amount : Value) : Except Fault GameState :=
  (Flags.raised key (s.flag? key) amount).map fun v =>
    { s with flags := Fields.insert key (some v) s.flags }

/-- Deletes a flag. -/
def eraseFlag (s : GameState) (key : String) : GameState :=
  { s with flags := Fields.erase key s.flags }

end GameState

end MapEvents
