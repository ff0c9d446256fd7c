import MapEvents.Value.Basic
import MapEvents.Double.Shortest
import MapEvents.Text.Quoted
/-!
# Text of a value

`Value.text` writes a value as it appears in a message or as a name: a text stands for itself, and
inside lists and objects texts are quoted. Null, true and false are written `None`, `True` and
`False`.
-/

namespace MapEvents.Value

/-- Joins the written items of a list or an object. -/
def commaSeparated (items : List String) : String := ", ".intercalate items

mutual
/-- A value as it is written inside a list or an object. -/
def nested : Value → String
  | .null => "None"
  | .bool b => if b then "True" else "False"
  | .int n => toString n
  | .float x => x.text
  | .str s => Quoted.quote s
  | .list items => "[" ++ commaSeparated (nestedItems items) ++ "]"
  | .obj fields => "\x7b" ++ commaSeparated (nestedFields fields) ++ "\x7d"

/-- The written items of a list. -/
def nestedItems : List Value → List String
  | [] => []
  | v :: rest => nested v :: nestedItems rest

/-- The written fields of an object. -/
def nestedFields : List (String × Value) → List String
  | [] => []
  | (k, v) :: rest => (Quoted.quote k ++ ": " ++ nested v) :: nestedFields rest
end

/-- A value on its own. -/
def text : Value → String
  | .str s => s
  | v => v.nested

end MapEvents.Value
