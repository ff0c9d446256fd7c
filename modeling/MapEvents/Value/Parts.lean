import MapEvents.Value.Basic
/-!
# Parts of a value

Lists and objects nest. `Value.leaves` lists what is neither, and `Value.names` the names of all
fields, at any depth and in the order in which they stand. `Value.edit` changes leaves and names and
leaves the nesting alone, except that it may drop fields.
-/

namespace MapEvents.Value

mutual
/-- The values inside a value that are no lists and no objects. -/
def leaves : Value → List Value
  | .list items => leavesOfItems items
  | .obj fields => leavesOfFields fields
  | v => [v]

/-- The leaves of all items. -/
def leavesOfItems : List Value → List Value
  | [] => []
  | v :: rest => v.leaves ++ leavesOfItems rest

/-- The leaves of all fields. -/
def leavesOfFields : Data → List Value
  | [] => []
  | (_, v) :: rest => v.leaves ++ leavesOfFields rest
end

mutual
/-- The names of all fields inside a value. -/
def names : Value → List String
  | .list items => namesOfItems items
  | .obj fields => namesOfFields fields
  | _ => []

/-- The names of all fields inside the items of a list. -/
def namesOfItems : List Value → List String
  | [] => []
  | v :: rest => v.names ++ namesOfItems rest

/-- The names of fields and of all fields inside them. -/
def namesOfFields : Data → List String
  | [] => []
  | (k, v) :: rest => k :: v.names ++ namesOfFields rest
end

mutual
/-- The value with each leaf changed and each field renamed; a field without new name is dropped. -/
def edit (rename : String → Option String) (leaf : Value → Value) : Value → Value
  | .list items => .list (editItems rename leaf items)
  | .obj fields => .obj (editFields rename leaf fields)
  | v => leaf v

/-- The items of a list, edited. -/
def editItems (rename : String → Option String) (leaf : Value → Value) : List Value → List Value
  | [] => []
  | v :: rest => v.edit rename leaf :: editItems rename leaf rest

/-- The fields of an object, edited. -/
def editFields (rename : String → Option String) (leaf : Value → Value) : Data → Data
  | [] => []
  | (k, v) :: rest =>
    match rename k with
    | some name => (name, v.edit rename leaf) :: editFields rename leaf rest
    | none => editFields rename leaf rest
end

end MapEvents.Value
