import MapEvents.State.Shape
/-!
# Updating the game state as a whole

An update names some fields of the state, in either spelling, and replaces them wholesale: a given
map or list takes the place of the old one and is not merged with it. Each named value is checked
like a value that is read, and either all named fields change or none.
-/

namespace MapEvents.GameState

/-- A field of the game state. -/
inductive Field where
  | flags
  | inventory
  | level
  | position
  | time
  | history
  deriving DecidableEq

namespace Field

/-- The fields in their order. -/
def all : List Field := [flags, inventory, level, position, time, history]

/-- Plain spelling. -/
def name : Field → String
  | flags => "flags"
  | inventory => "inventory"
  | level => "player_level"
  | position => "player_position"
  | time => "time"
  | history => "event_history"

/-- The editor's spelling. -/
def editorName : Field → String
  | flags => "flags"
  | inventory => "inventory"
  | level => "playerLevel"
  | position => "playerPosition"
  | time => "time"
  | history => "eventHistory"

/-- The field of this name in either spelling. -/
def ofKey? (key : String) : Option Field := all.find? fun f => f.name = key ∨ f.editorName = key

/-- The change that replaces the field by what the value stands for. -/
def replace (f : Field) (v : Value) : Checked (GameState → GameState) :=
  match f with
  | flags => (flagsShape.read v).map fun x s => { s with flags := x }
  | inventory => (inventoryShape.read v).map fun x s =>
    { s with inventory := List.map Item.ofData x }
  | level => (Shape.whole.read v).map fun x s => { s with level := x }
  | position => (positionShape.read v).map fun x s => { s with position := Position.ofData x }
  | time => (Shape.real.read v).map fun x s => { s with time := x }
  | history => (historyShape.read v).map fun x s =>
    { s with history := List.map HistoryEntry.ofData x }

end Field

/-- The fields that an update names, with the values for them; of two spellings of one field, the
later one counts. -/
def touched : Data → List (Field × Value) → Except Fault (List (Field × Value))
  | [], found => .ok found
  | (key, v) :: rest, found =>
    match Field.ofKey? key with
    | none => .error (.unknownField key)
    | some f => touched rest (found.filter (·.1 ≠ f) ++ [(f, v)])

/-- The changes for the given fields, in the order of the fields. -/
def changes (found : List (Field × Value)) : List Field → Checked (List (GameState → GameState))
  | [] => .ok []
  | f :: rest =>
    match found.lookup f with
    | none => changes found rest
    | some v =>
      (Checked.both ((f.replace v).under (.key f.name)) (changes found rest)).map fun p =>
        p.1 :: p.2

/-- The state with the named fields replaced. -/
def update (given : Data) (s : GameState) : Except Fault GameState :=
  match touched given [] with
  | .error fault => .error fault
  | .ok found =>
    match changes found Field.all with
    | .error issues => .error (.invalid issues)
    | .ok fs => .ok (fs.foldl (fun s f => f s) s)

/-- Fields of a patch: those of the state, each of which may be null. -/
abbrev patchFields : Record :=
  .has "flags" .null (.optional flagsShape) <|
  .has "inventory" .null (.optional inventoryShape) <|
  .hasAs "player_level" "playerLevel" .null (.optional .whole) <|
  .hasAs "player_position" "playerPosition" .null (.optional positionShape) <|
  .has "time" .null (.optional .real) <|
  .hasAs "event_history" "eventHistory" .null (.optional historyShape) .done

/-- Shape of a patch. -/
abbrev patchShape : Shape := .record patchFields

/-- The part of a checked patch that was sent: the fields that are present in the body, under their
plain names. -/
def sentFields (body : Data) (patch : patchFields.Of) : Data :=
  (Field.all.zip (patchFields.dump .numeric patch)).filterMap fun (f, (_, v)) =>
    if Fields.contains f.name body ∨ Fields.contains f.editorName body then some (f.name, v)
    else none

end MapEvents.GameState
