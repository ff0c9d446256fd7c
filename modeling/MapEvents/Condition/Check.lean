import MapEvents.Condition.Compare
import MapEvents.World
/-!
# Checking conditions

A condition is checked against the game state. Only a random condition draws a number, and only a
custom condition asks the hook. The conditions of a list are checked in order, up to the first that
does not hold.
-/

namespace MapEvents

namespace Condition

/-- Chance of a random condition that gives none. -/
def defaultProbability : Double := .half

/-- Whether a flag condition holds; absent and null flags are absent. -/
def flagHolds (c : Condition) (s : GameState) : Bool :=
  let v := s.flag? (c.key.getD "")
  match c.operator with
  | .present => v.isSome
  | .absent => v.isNone
  | op => op.holds v c.value

/-- Whether an item condition holds; an item that is not in the inventory has the count zero. -/
def itemHolds (c : Condition) (s : GameState) : Bool :=
  let count := ((s.item? (c.key.getD "")).map (·.count)).getD (.whole 0)
  match c.operator with
  | .present => count.isPositive
  | .absent => count.isZero
  | op => op.holds (some count.toScalar) c.value

variable {σ : Type}

/-- Whether the condition holds in the world. -/
def check (s : Surroundings σ) (c : Condition) (w : World σ) : Except Fault Bool × World σ :=
  match c.kind with
  | .flag => (.ok (c.flagHolds w.state), w)
  | .item => (.ok (c.itemHolds w.state), w)
  | .level => (.ok (c.operator.holds (some (.int w.state.level)) c.value), w)
  | .time => (.ok (c.operator.holds (some (.float w.state.time)) c.value), w)
  | .random =>
    let (x, o) := s.draw w.outside
    (.ok (x.lt (c.probability.getD defaultProbability)), { w.note .draw with outside := o })
  | .custom =>
    match s.hook with
    | none => (.ok true, w)
    | some hook =>
      let (r, o) := hook c w.state w.outside
      (r, { w.note (.hook c.key c.value) with outside := o })

/-- Whether all conditions hold, checked in order up to the first that does not. -/
def checkAll (s : Surroundings σ) : List Condition → World σ → Except Fault Bool × World σ
  | [], w => (.ok true, w)
  | c :: rest, w =>
    match c.check s w with
    | (.ok true, w) => checkAll s rest w
    | r => r

end Condition

end MapEvents
