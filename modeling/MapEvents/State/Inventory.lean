import MapEvents.State.Shape
import MapEvents.Value.Text
/-!
# Changing the inventory

An inventory is a list of entries with an id and a count. Adding raises the count of the first entry
with the id, or appends a new entry, which is checked like any entry that is read: its count is a
whole number and not negative. Removing lowers the count of the first entry with the id; when
nothing is left, every entry with that id goes. Changes to an existing count are not checked, so
that it may become negative or a double.
-/

namespace MapEvents.Inventory

/-- Changes the first entry with the id. -/
def modifyFirst (id : String) (change : Item → Item) : List Item → List Item
  | [] => []
  | i :: rest => if i.id = id then change i :: rest else i :: modifyFirst id change rest

/-- Sets the count of the first entry with the id. -/
def setCount (id : String) (count : Number) : List Item → List Item :=
  modifyFirst id fun i => { i with count }

/-- A new entry out of free-form values; without a name it is named after its id. -/
def newItem (id count name : Value) : Except Fault Item :=
  match Item.read (.obj [("id", id), ("name", name.orElse (.str ("Item " ++ id.text))),
      ("count", count)]) with
  | .ok item => .ok item
  | .error issues => .error (.invalid issues)

/-- Raises a count, or appends a new entry. -/
def add (id : String) (count name : Value) (items : List Item) : Except Fault (List Item) :=
  match items.find? (·.id = id) with
  | none => (newItem (.str id) count name).map fun i => items ++ [i]
  | some i => do
    let amount ← Number.ofValue count
    let sum ← i.count.plus amount
    return setCount id sum items

/-- Lowers a count, and drops the id when nothing is left; without such an entry any count will
do. -/
def remove (id : String) (count : Value) (items : List Item) : Except Fault (List Item) :=
  match items.find? (·.id = id) with
  | none => .ok items
  | some i => do
    let amount ← Number.ofValue count
    let left ← i.count.minus amount
    return if left.isPositive then setCount id left items else items.filter (·.id ≠ id)

end MapEvents.Inventory

namespace MapEvents.GameState

/-- Raises the count of an item, or adds the item. -/
def addItem (s : GameState) (id : String) (count : Value) (name : Value) :
    Except Fault GameState :=
  (Inventory.add id count name s.inventory).map fun items => { s with inventory := items }

/-- Lowers the count of an item. -/
def removeItem (s : GameState) (id : String) (count : Value) : Except Fault GameState :=
  (Inventory.remove id count s.inventory).map fun items => { s with inventory := items }

end MapEvents.GameState
