import MapEvents.Calendar.Moment
import MapEvents.Value.Number
/-!
# Shapes of data

A `Shape` describes data that the editor sends: a leaf, an optional value, a list, a map with free
keys, or a record with named fields. A field has a plain name, the name by which the editor calls
it, and possibly a default. `Shape.Of` is the type of data of a shape, so that checking a value
yields data of the right type and nothing remains to be checked later.
-/

namespace MapEvents

/-- A kind of data without parts. -/
inductive Leaf where
  | text
  | whole
  /-- An integer that is not negative when it is read; later it may become any number. -/
  | count
  | real
  | switch
  /-- A flag's value: true or false, a number or a text. -/
  | flag
  | moment
  /-- One of the given names. -/
  | choice (names : List String)
  /-- Data of any shape. -/
  | free

/-- Type of the data of a leaf; a choice is the position of the chosen name. -/
abbrev Leaf.Of : Leaf → Type
  | .text => String
  | .whole => Int
  | .count => Number
  | .real => Double
  | .switch => Bool
  | .flag => Scalar
  | .moment => Moment
  | .choice names => Fin names.length
  | .free => Value

/-- How a field of a record is found. -/
structure Label where
  /-- Plain spelling. -/
  name : String
  /-- The editor's spelling, which is looked for first and used in dumps. -/
  editorName : String
  /-- What an absent field counts as; a field without default is required. -/
  default : Option Value

mutual
/-- A shape of data. -/
inductive Shape where
  | leaf (l : Leaf)
  | optional (s : Shape)
  | list (s : Shape)
  | map (s : Shape)
  | record (fields : Record)

/-- The fields of a record in their order. -/
inductive Record where
  | done
  | field (label : Label) (s : Shape) (rest : Record)
end

mutual
/-- Type of the data of a shape. -/
def Shape.Of : Shape → Type
  | .leaf l => l.Of
  | .optional s => Option s.Of
  | .list s => List s.Of
  | .map s => List (String × s.Of)
  | .record fields => fields.Of

/-- Type of the data of the fields of a record. -/
def Record.Of : Record → Type
  | .done => Unit
  | .field _ s rest => s.Of × rest.Of
end

namespace Record

/-- A field that must be present, with the same spelling in both styles. -/
abbrev needs (name : String) (s : Shape) (rest : Record) : Record :=
  .field ⟨name, name, none⟩ s rest

/-- A field with a default, with the same spelling in both styles. -/
abbrev has (name : String) (default : Value) (s : Shape) (rest : Record) : Record :=
  .field ⟨name, name, some default⟩ s rest

/-- A field that must be present. -/
abbrev needsAs (name editorName : String) (s : Shape) (rest : Record) : Record :=
  .field ⟨name, editorName, none⟩ s rest

/-- A field with a default. -/
abbrev hasAs (name editorName : String) (default : Value) (s : Shape) (rest : Record) : Record :=
  .field ⟨name, editorName, some default⟩ s rest

end Record

namespace Shape

/-- A text. -/
abbrev text : Shape := .leaf .text

/-- An integer. -/
abbrev whole : Shape := .leaf .whole

/-- A double. -/
abbrev real : Shape := .leaf .real

/-- A flag's value or null. -/
abbrev flag : Shape := .optional (.leaf .flag)

/-- A map with data of any shape. -/
abbrev data : Shape := .map (.leaf .free)

/-- A choice among named things. -/
abbrev choiceOf {α : Type} (all : List α) (name : α → String) : Shape :=
  .leaf (.choice (all.map name))

/-- The chosen thing. -/
def chosen {α : Type} (all : List α) (name : α → String) (i : (choiceOf all name).Of) : α :=
  all.get (Fin.cast (List.length_map name) i)

end Shape

end MapEvents
