import MapEvents.Fault
import MapEvents.Text.NumberText
import MapEvents.Value.Basic
/-!
# Integers out of free-form values

Counts and amounts in action parameters are free-form. `Value.whole` makes an integer of a value:
true and false count as one and zero, a double loses its fraction, a text is read, and every other
kind is refused.
-/

namespace MapEvents

/-- Integer part of a double. -/
def Double.whole : Double → Except Fault Int
  | .nan => .error .unreadableNumber
  | .infinite _ => .error .numberOutOfRange
  | x@(.finite ..) => .ok (x.whole?.getD 0)

/-- The integer that a value stands for. -/
def Value.whole : Value → Except Fault Int
  | .bool b => .ok (if b then 1 else 0)
  | .int n => .ok n
  | .float x => x.whole
  | .str s =>
    match NumberText.readWhole? s with
    | some n => .ok n
    | none => .error .unreadableNumber
  | _ => .error .wrongKind

end MapEvents
