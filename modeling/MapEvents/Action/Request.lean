import MapEvents.State.Basic
/-!
# Requests to the host

Actions that reach beyond the game state ask the host: to show a message, to announce a treasure, or
to perform a deed whose parameters only the host understands.
-/

namespace MapEvents

/-- A deed that the host performs. -/
inductive Deed where
  | heal
  | damage
  | warp
  | startBattle
  | saveGame
  | playSound
  deriving DecidableEq

/-- A request to the host. -/
inductive Request where
  | showMessage (title : Value) (text : String)
  | grantTreasure (gold experience : Int)
  | perform (deed : Deed) (params : Data)

/-- What an answer of the host or of a handler means: null is success, and a text names an
outcome. -/
def Outcome.ofReply : Value → Except Fault Outcome
  | .null => .ok .success
  | .str s =>
    match Outcome.ofName? s with
    | some o => .ok o
    | none => .error .unknownResult
  | _ => .error .unknownResult

end MapEvents
