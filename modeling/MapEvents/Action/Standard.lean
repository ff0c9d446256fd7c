import MapEvents.Action.Request
import MapEvents.State.Flags
import MapEvents.State.Inventory
import MapEvents.Value.Text
import MapEvents.Value.Whole
/-!
# Standard actions

The actions that every session knows. A standard action changes flags and inventory and may end in a
request to the host. `StandardAction.perform` gives both at once: the state it leaves behind, and
either the request or the fault that ended it. What was done before a fault stays done.
-/

namespace MapEvents

/-- An action that every session knows. -/
inductive StandardAction where
  | message
  | treasure
  | flag
  | item
  | heal
  | damage
  | warp
  | battle
  | save
  | sound
  deriving DecidableEq

namespace StandardAction

/-- All standard actions. -/
def all : List StandardAction :=
  [message, treasure, flag, item, heal, damage, warp, battle, save, sound]

/-- Tag of the action. -/
def tag : StandardAction → String
  | message => "message"
  | treasure => "treasure"
  | flag => "flag"
  | item => "item"
  | heal => "heal"
  | damage => "damage"
  | warp => "warp"
  | battle => "battle"
  | save => "save"
  | sound => "sound"

/-- Whether a parameter is exactly this text. -/
def isText (v : Option Value) (s : String) : Bool :=
  match v with
  | some (.str t) => t = s
  | _ => false

/-- A parameter, null if it is absent. -/
def param (params : Data) (key : String) : Value := (Fields.find? key params).getD .null

/-- A parameter as text, empty if it is absent. -/
def textParam (params : Data) (key : String) : String :=
  ((Fields.find? key params).map Value.text).getD ""

/-- An integer parameter; what counts as false, or is absent, stands for the given number. -/
def wholeParam (params : Data) (key : String) (fallback : Int) : Except Fault Int :=
  ((param params key).orElse (.int fallback)).whole

/-- The message to show. -/
def messageRequest (params : Data) : Request :=
  .showMessage ((param params "title").orElse (.str "System")) (textParam params "text")

/-- Adds one entry of a treasure. -/
def addEntry (s : GameState) : Value → Except Fault GameState
  | .obj entry =>
    match Fields.find? "id" entry with
    | none => .error .missingId
    | some id =>
      match wholeParam entry "count" 1 with
      | .error fault => .error fault
      | .ok count => s.addItem id.text (.int count) (param entry "name")
  | _ => .error .wrongKind

/-- Adds the entries of a treasure in order, up to the first that cannot be added. -/
def addEntries (s : GameState) : List Value → GameState × Except Fault Unit
  | [] => (s, .ok ())
  | v :: rest =>
    match addEntry s v with
    | .ok s => addEntries s rest
    | .error fault => (s, .error fault)

/-- The treasure to announce. -/
def treasureRequest (params : Data) : Except Fault Request :=
  match wholeParam params "gold" 0 with
  | .error fault => .error fault
  | .ok gold =>
    match wholeParam params "experience" 0 with
    | .error fault => .error fault
    | .ok experience => .ok (.grantTreasure gold experience)

/-- The entries of a treasure; anything but a list has none. -/
def treasureEntries (params : Data) : List Value :=
  match Fields.find? "items" params with
  | some (.list entries) => entries
  | _ => []

/-- Adds the entries of a treasure and then works out what to announce. -/
def performTreasure (params : Data) (s : GameState) : GameState × Except Fault Request :=
  match addEntries s (treasureEntries params) with
  | (s, .ok ()) => (s, treasureRequest params)
  | (s, .error fault) => (s, .error fault)

/-- Sets, raises or deletes a flag; other operations do nothing. -/
def performFlag (params : Data) (s : GameState) : Except Fault GameState :=
  let operation := Fields.find? "operation" params
  let key := textParam params "key"
  let value := param params "value"
  if isText operation "set" then s.setFlag key value
  else if isText operation "add" then s.raiseFlag key value
  else if isText operation "delete" then .ok (s.eraseFlag key)
  else .ok s

/-- Adds or removes an item; other operations do nothing, but the count is read in any case. -/
def performItem (params : Data) (s : GameState) : Except Fault GameState :=
  let operation := Fields.find? "operation" params
  let id := textParam params "itemId"
  match wholeParam params "count" 1 with
  | .error fault => .error fault
  | .ok count =>
    if isText operation "add" then s.addItem id (.int count) .null
    else if isText operation "remove" then s.removeItem id (.int count)
    else .ok s

/-- The deed behind an action that the host performs as it stands. -/
def deed? : StandardAction → Option Deed
  | heal => some .heal
  | damage => some .damage
  | warp => some .warp
  | battle => some .startBattle
  | save => some .saveGame
  | sound => some .playSound
  | _ => none

/-- The state after a change that may fail, and no request. -/
def changing (s : GameState) : Except Fault GameState → GameState × Except Fault (Option Request)
  | .ok s => (s, .ok none)
  | .error fault => (s, .error fault)

/-- Performs a standard action: the state that it leaves, and a request or a fault. -/
def perform (a : StandardAction) (params : Data) (s : GameState) :
    GameState × Except Fault (Option Request) :=
  match a with
  | message => (s, .ok (some (messageRequest params)))
  | treasure =>
    let (s, r) := performTreasure params s
    (s, r.map some)
  | flag => changing s (performFlag params s)
  | item => changing s (performItem params s)
  | a => (s, .ok (a.deed?.map (.perform · params)))

end StandardAction

end MapEvents
