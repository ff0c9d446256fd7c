import MapEvents.Calendar.Moment
import MapEvents.Fields
import MapEvents.Value.Number
/-!
# The game state

What events read and change: flags, an inventory, the player's level and position, the time inside
the game, and the history of finished executions in the order in which they finished. The time
inside the game is unrelated to the stamps of the history.
-/

namespace MapEvents

/-- How an action or an execution ended. -/
inductive Outcome where
  | success
  | failed
  | cancelled
  deriving DecidableEq

/-- Name of an outcome in data. -/
def Outcome.name : Outcome → String
  | .success => "success"
  | .failed => "failed"
  | .cancelled => "cancelled"

/-- The outcome of this name. -/
def Outcome.ofName? : String → Option Outcome
  | "success" => some .success
  | "failed" => some .failed
  | "cancelled" => some .cancelled
  | _ => none

/-- An entry of the inventory. Its count is read as a whole number and may be changed by any. -/
structure Item where
  id : String
  name : String
  count : Number
  deriving DecidableEq

/-- Where the player stands. -/
structure Position where
  x : Int
  y : Int
  floor : Int
  deriving DecidableEq

/-- A finished execution of an event. -/
structure HistoryEntry where
  /-- Id of the event. -/
  event : String
  /-- When the execution finished. -/
  stamp : Moment
  outcome : Outcome
  deriving DecidableEq

/-- Flags by name; a flag may be set to null. -/
abbrev Flags := List (String × Option Scalar)

/-- The state of a game. -/
structure GameState where
  flags : Flags
  inventory : List Item
  level : Int
  position : Position
  /-- Time inside the game. -/
  time : Double
  /-- Finished executions, oldest first. -/
  history : List HistoryEntry
  deriving DecidableEq

namespace GameState

/-- The state of a new game. -/
def initial : GameState :=
  { flags := []
    inventory := []
    level := 1
    position := ⟨0, 0, 0⟩
    time := .zero
    history := [] }

/-- Value of a flag; absent and null are the same. -/
def flag? (s : GameState) (key : String) : Option Scalar := (Fields.find? key s.flags).join

/-- The first entry of the inventory with this id. -/
def item? (s : GameState) (id : String) : Option Item := s.inventory.find? (·.id = id)

/-- Adds a finished execution at the end of the history. -/
def record (s : GameState) (e : HistoryEntry) : GameState :=
  { s with history := s.history ++ [e] }

end GameState

/-- How many entries of a history belong to the event. -/
def HistoryEntry.countOf (event : String) (history : List HistoryEntry) : Nat :=
  history.countP (·.event = event)

end MapEvents
