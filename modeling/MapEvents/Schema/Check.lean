import MapEvents.Fields
import MapEvents.Schema.Leaf
/-!
# Checking values against shapes

`Shape.check` turns a value into data of a shape or reports every issue, fields in their declared
order and lists item by item. A field is looked for under the editor's name first and then under
its plain name; keys that name no field are ignored. `Shape.dump` writes data back, fields under the
editor's names.
-/

namespace MapEvents

namespace Checked

/-- Both results, or the issues of both in order. -/
def both {α β : Type} : Checked α → Checked β → Checked (α × β)
  | .ok a, .ok b => .ok (a, b)
  | .ok _, .error e => .error e
  | .error e, .ok _ => .error e
  | .error e, .error f => .error (e ++ f)

/-- The same check seen from one level further out. -/
def under {α : Type} (step : Step) : Checked α → Checked α
  | .ok a => .ok a
  | .error issues => .error (issues.map (·.under step))

/-- Checks the items of a list, which are numbered from `start`. -/
def items {α : Type} (check : Value → Checked α) : (start : Nat) → List Value → Checked (List α)
  | _, [] => .ok []
  | start, v :: rest =>
    (both ((check v).under (.index start)) (items check (start + 1) rest)).map fun p => p.1 :: p.2

/-- Checks the values of a map. -/
def entries {α : Type} (check : Value → Checked α) : Data → Checked (List (String × α))
  | [] => .ok []
  | (k, v) :: rest =>
    (both ((check v).under (.key k)) (entries check rest)).map fun p => (k, p.1) :: p.2

/-- Checks the field with this label. -/
def field {α : Type} (check : Value → Checked α) (label : Label) (fields : Data) : Checked α :=
  match Fields.find? label.editorName fields with
  | some v => (check v).under (.key label.editorName)
  | none =>
    match Fields.find? label.name fields with
    | some v => (check v).under (.key label.name)
    | none =>
      match label.default with
      | some v => check v
      | none => .error [⟨.missing, [.key label.editorName], .obj fields⟩]

end Checked

mutual
/-- Data of the shape that the value stands for. `misfit` is the kind of issue for a value that
should be a record and is no object. -/
def Shape.check (misfit : IssueKind) : (s : Shape) → Value → Checked s.Of
  | .leaf l, v => l.check v
  | .optional s, v =>
    match v with
    | .null => .ok none
    | v => (s.check misfit v).map some
  | .list s, v =>
    match v with
    | .list items => Checked.items (s.check misfit) 0 items
    | v => Leaf.refuse .notList v
  | .map s, v =>
    match v with
    | .obj fields => Checked.entries (s.check misfit) fields
    | v => Leaf.refuse .notMap v
  | .record fields, v =>
    match v with
    | .obj given => fields.check misfit given
    | v => Leaf.refuse misfit v

/-- Data of the fields of a record. -/
def Record.check (misfit : IssueKind) : (r : Record) → Data → Checked r.Of
  | .done, _ => .ok ()
  | .field label s rest, given =>
    Checked.both (Checked.field (s.check misfit) label given) (rest.check misfit given)
end

mutual
/-- The value that stands for data of the shape. -/
def Shape.dump (style : UtcStyle) : (s : Shape) → s.Of → Value
  | .leaf l, x => l.dump style x
  | .optional s, x =>
    match (x : Option s.Of) with
    | none => .null
    | some y => s.dump style y
  | .list s, x => .list (List.map (s.dump style) x)
  | .map s, x => .obj (List.map (fun p : String × s.Of => (p.1, s.dump style p.2)) x)
  | .record fields, x => .obj (fields.dump style x)

/-- The fields that stand for data of a record. -/
def Record.dump (style : UtcStyle) : (r : Record) → r.Of → Data
  | .done, _ => []
  | .field label s rest, (x : s.Of × rest.Of) =>
    (label.editorName, s.dump style x.1) :: rest.dump style x.2
end

/-- Data of the shape that the value stands for. -/
def Shape.read (s : Shape) (v : Value) : Checked s.Of := s.check .notRecord v

end MapEvents
