/-!
# Maps from names to values

A map is a list of named values in the order in which the names were first written. A name that
occurs twice counts by its first pair.
-/

namespace MapEvents.Fields

variable {α : Type}

/-- Value under a name: that of the first pair with this name. -/
def find? (key : String) : List (String × α) → Option α
  | [] => none
  | (k, v) :: rest => if k = key then some v else find? key rest

/-- Whether the name is present. -/
def contains (key : String) (fields : List (String × α)) : Bool := (find? key fields).isSome

/-- Writes a value under a name: in place if the name is present, otherwise at the end. -/
def insert (key : String) (value : α) : List (String × α) → List (String × α)
  | [] => [(key, value)]
  | (k, v) :: rest => if k = key then (k, value) :: rest else (k, v) :: insert key value rest

/-- Removes a name. -/
def erase (key : String) (fields : List (String × α)) : List (String × α) :=
  fields.filter (·.1 ≠ key)

end MapEvents.Fields
