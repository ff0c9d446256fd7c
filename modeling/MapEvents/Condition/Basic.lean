import MapEvents.Schema.Check
/-!
# Conditions

A condition looks at one aspect of the game and compares it with a value. Triggers and actions carry
lists of conditions, which hold together.
-/

namespace MapEvents

/-- What a condition looks at. -/
inductive ConditionKind where
  | flag
  | item
  | level
  | time
  | random
  | custom
  deriving DecidableEq

namespace ConditionKind

/-- All kinds. -/
def all : List ConditionKind := [flag, item, level, time, random, custom]

/-- Name of the kind in data. -/
def name : ConditionKind → String
  | flag => "flag"
  | item => "item"
  | level => "level"
  | time => "time"
  | random => "random"
  | custom => "custom"

end ConditionKind

/-- How a condition compares. -/
inductive Operator where
  | equal
  | unequal
  | greater
  | less
  | atLeast
  | atMost
  | present
  | absent
  deriving DecidableEq

namespace Operator

/-- All operators. -/
def all : List Operator := [equal, unequal, greater, less, atLeast, atMost, present, absent]

/-- Name of the operator in data. -/
def name : Operator → String
  | equal => "=="
  | unequal => "!="
  | greater => ">"
  | less => "<"
  | atLeast => ">="
  | atMost => "<="
  | present => "has"
  | absent => "not_has"

/-- The operator of this name. -/
def ofName? (s : String) : Option Operator := all.find? (·.name = s)

end Operator

/-- A condition on the state of the game. -/
structure Condition where
  kind : ConditionKind
  operator : Operator
  /-- Flag, item or custom condition that is looked at. -/
  key : Option String
  /-- What the aspect is compared with. -/
  value : Option Scalar
  /-- Chance of a random condition. -/
  probability : Option Double
  deriving DecidableEq

namespace Condition

/-- Fields of a condition. -/
abbrev record : Record :=
  .needs "type" (.choiceOf ConditionKind.all ConditionKind.name) <|
  .has "operator" (.str "==") (.choiceOf Operator.all Operator.name) <|
  .has "key" .null (.optional .text) <|
  .has "value" .null .flag <|
  .has "probability" .null (.optional .real) .done

/-- A condition from its fields. -/
def ofData : record.Of → Condition := fun (kind, operator, key, value, probability, ()) =>
  { kind := Shape.chosen ConditionKind.all ConditionKind.name kind
    operator := Shape.chosen Operator.all Operator.name operator
    key
    value
    probability }

/-- The condition that a value stands for. -/
def read (v : Value) : Checked Condition := ((Shape.record record).read v).map ofData

end Condition

end MapEvents
