import MapEvents.Condition.Basic
/-!
# Comparing values

Equality is strict: true and false equal only themselves, never a number. Numbers are compared by
their exact values, whatever their kind and size, and nothing equals not-a-number. In orderings true
and false count as one and zero, texts go by code points, and all other pairs are unordered, which
makes every ordering false.
-/

namespace MapEvents

namespace Scalar

/-- Place on the number line; texts and not-a-number have none. -/
def extent? : Scalar → Option Extent
  | .bool b => some (Extent.ofInt (if b then 1 else 0))
  | .int n => some (Extent.ofInt n)
  | .float x => x.extent?
  | .str _ => none

/-- Strict equality. -/
def equals : Scalar → Scalar → Bool
  | .bool a, .bool b => a = b
  | .bool _, _ => false
  | _, .bool _ => false
  | .str a, .str b => a = b
  | a, b =>
    match a.extent?, b.extent? with
    | some x, some y => x = y
    | _, _ => false

/-- Whether the first of two ordered values is the smaller one; none if they are unordered. -/
def less? : Scalar → Scalar → Option Bool
  | .str a, .str b => some (decide (a < b))
  | a, b =>
    match a.extent?, b.extent? with
    | some x, some y => some (x.lt y)
    | _, _ => none

end Scalar

namespace Operator

/-- Equality of values that may be null. -/
def equalOrNull : Option Scalar → Option Scalar → Bool
  | none, none => true
  | some a, some b => a.equals b
  | _, _ => false

/-- Order of values that may be null; null is unordered. -/
def less? : Option Scalar → Option Scalar → Option Bool
  | some a, some b => a.less? b
  | _, _ => none

/-- Whether the comparison holds. Presence is no comparison and never holds. -/
def holds (left : Option Scalar) (right : Option Scalar) : Operator → Bool
  | equal => equalOrNull left right
  | unequal => !equalOrNull left right
  | less => (less? left right).getD false
  | greater => (less? right left).getD false
  | atMost => (less? right left).any (!·)
  | atLeast => (less? left right).any (!·)
  | present => false
  | absent => false

end Operator

end MapEvents
