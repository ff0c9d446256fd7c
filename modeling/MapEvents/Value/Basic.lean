import MapEvents.Double.Basic
/-!
# Free-form data

Event authors attach data of any shape to events, actions and triggers. A `Value` is such data; a
`Scalar` is one of the four kinds that a flag may hold. Integers are unbounded and differ from
doubles: `1` and `1.0` are two values. The fields of an object keep their order.
-/

namespace MapEvents

/-- A free-form value. -/
inductive Value where
  | null
  | bool (b : Bool)
  | int (n : Int)
  | float (x : Double)
  | str (s : String)
  | list (items : List Value)
  | obj (fields : List (String × Value))
  deriving Inhabited

/-- Named values in the order in which they were written. -/
abbrev Data := List (String × Value)

/-- What a flag holds when it is not null. -/
inductive Scalar where
  | bool (b : Bool)
  | int (n : Int)
  | float (x : Double)
  | str (s : String)
  deriving DecidableEq

namespace Scalar

/-- The scalar as a free-form value. -/
def toValue : Scalar → Value
  | .bool b => .bool b
  | .int n => .int n
  | .float x => .float x
  | .str s => .str s

/-- Whether the scalar counts as true: neither false, nor zero, nor empty. -/
def truthy : Scalar → Bool
  | .bool b => b
  | .int n => n ≠ 0
  | .float x => !x.isZero
  | .str s => s ≠ ""

end Scalar

namespace Value

/-- A scalar or null as a free-form value. -/
def ofScalar? : Option Scalar → Value
  | none => .null
  | some s => s.toValue

/-- Whether the value counts as true: neither null nor false nor zero nor empty. -/
def truthy : Value → Bool
  | .null => false
  | .bool b => b
  | .int n => n ≠ 0
  | .float x => !x.isZero
  | .str s => s ≠ ""
  | .list items => !items.isEmpty
  | .obj fields => !fields.isEmpty

/-- The value itself if it counts as true, otherwise the given one. -/
def orElse (v fallback : Value) : Value := if v.truthy then v else fallback

end Value

end MapEvents
