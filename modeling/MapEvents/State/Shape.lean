import MapEvents.Schema.Check
import MapEvents.State.Basic
/-!
# Shape of the game state

The shapes of the state and its parts, and the passage between data of these shapes and the types of
`MapEvents.State.Basic`.
-/

namespace MapEvents

namespace Outcome

/-- One of the three names. -/
abbrev shape : Shape := .leaf (.choice ["success", "failed", "cancelled"])

/-- The outcome at a position of the list of names. -/
def ofData : shape.Of → Outcome
  | (0 : Fin 3) => .success
  | (1 : Fin 3) => .failed
  | (2 : Fin 3) => .cancelled

/-- Position of the outcome in the list of names. -/
def toData : Outcome → shape.Of
  | .success => (0 : Fin 3)
  | .failed => (1 : Fin 3)
  | .cancelled => (2 : Fin 3)

end Outcome

namespace Item

/-- Fields of an inventory entry. -/
abbrev record : Record :=
  .needs "id" .text <| .needs "name" .text <| .needs "count" (.leaf .count) .done

/-- An inventory entry from its fields. -/
def ofData : record.Of → Item := fun (id, name, count, ()) => ⟨id, name, count⟩

/-- The fields of an inventory entry. -/
def toData (i : Item) : record.Of := (i.id, i.name, i.count, ())

/-- The inventory entry that a value stands for. -/
def read (v : Value) : Checked Item := ((Shape.record record).read v).map ofData

/-- The value that stands for an inventory entry. -/
def toValue (i : Item) : Value := (Shape.record record).dump .numeric i.toData

end Item

namespace Position

/-- Fields of a position. -/
abbrev record : Record :=
  .has "x" (.int 0) .whole <| .has "y" (.int 0) .whole <| .has "floor" (.int 0) .whole .done

/-- A position from its fields. -/
def ofData : record.Of → Position := fun (x, y, floor, ()) => ⟨x, y, floor⟩

/-- The fields of a position. -/
def toData (p : Position) : record.Of := (p.x, p.y, p.floor, ())

end Position

namespace HistoryEntry

/-- Fields of a history entry. -/
abbrev record : Record :=
  .needsAs "event_id" "eventId" .text <| .needs "timestamp" (.leaf .moment) <|
    .needs "result" Outcome.shape .done

/-- A history entry from its fields. -/
def ofData : record.Of → HistoryEntry := fun (event, stamp, outcome, ()) =>
  ⟨event, stamp, Outcome.ofData outcome⟩

/-- The fields of a history entry. -/
def toData (e : HistoryEntry) : record.Of := (e.event, e.stamp, e.outcome.toData, ())

/-- The history entry that a value stands for. -/
def read (v : Value) : Checked HistoryEntry := ((Shape.record record).read v).map ofData

end HistoryEntry

namespace GameState

/-- Shape of the flags. -/
abbrev flagsShape : Shape := .map .flag

/-- Shape of the inventory. -/
abbrev inventoryShape : Shape := .list (.record Item.record)

/-- Shape of the position. -/
abbrev positionShape : Shape := .record Position.record

/-- Shape of the history. -/
abbrev historyShape : Shape := .list (.record HistoryEntry.record)

/-- Fields of the game state. -/
abbrev fields : Record :=
  .has "flags" (.obj []) flagsShape <|
  .has "inventory" (.list []) inventoryShape <|
  .hasAs "player_level" "playerLevel" (.int 1) .whole <|
  .hasAs "player_position" "playerPosition" (.obj []) positionShape <|
  .has "time" (.int 0) .real <|
  .hasAs "event_history" "eventHistory" (.list []) historyShape .done

/-- Shape of the game state. -/
abbrev shape : Shape := .record fields

/-- A game state from its fields. -/
def ofData : fields.Of → GameState := fun (flags, inventory, level, position, time, history, ()) =>
  { flags
    inventory := List.map Item.ofData inventory
    level
    position := Position.ofData position
    time
    history := List.map HistoryEntry.ofData history }

/-- The fields of a game state. -/
def toData (s : GameState) : fields.Of :=
  (s.flags, s.inventory.map Item.toData, s.level, s.position.toData, s.time,
    s.history.map HistoryEntry.toData, ())

/-- The game state that a value stands for. -/
def read (v : Value) : Checked GameState := (shape.read v).map ofData

/-- The value that stands for a game state. -/
def toValue (style : UtcStyle) (s : GameState) : Value := shape.dump style s.toData

end GameState

end MapEvents
