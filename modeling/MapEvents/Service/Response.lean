import MapEvents.Fault
import MapEvents.Review.Report
import MapEvents.Text.Half
import MapEvents.Value.Parts
/-!
# Answers of the service

An answer has a status code and a body. In an answer that succeeds, numbers that are not finite are
sent as null, and a text with half a character cannot be sent at all.

An answer that reports issues repeats the inputs that do not fit; the body of a `Response` leaves
these inputs out, but they decide whether the answer can be sent: numbers have to be finite, and no
text or name may hold half a character. Fields whose names start with `_sa` are not repeated.
-/

namespace MapEvents

namespace Value

/-- Whether the value is no number or a finite one. -/
def isFinite : Value → Bool
  | .float x => x.isFinite
  | _ => true

/-- Whether the value is a text with half a character. -/
def isBroken : Value → Bool
  | .str s => Half.isIn s
  | _ => false

/-- A value as it is sent: numbers that are not finite become null, and in names of fields halves of
characters are replaced. -/
def sent (v : Value) : Value :=
  v.edit (fun name => some (Half.replaced name)) fun leaf => if leaf.isFinite then leaf else .null

/-- What a report on issues repeats of an input. -/
def repeated (v : Value) : Value :=
  v.edit (fun name => if name.startsWith "_sa" then none else some name) id

end Value

/-- One step of a path as a value. -/
def Step.toValue : Step → Value
  | .key name => .str (Half.replaced name)
  | .index n => .int n

/-- An issue as a value: its kind and its path. -/
def Issue.toValue (i : Issue) : Value :=
  .list [.str i.kind.code, .list (i.path.map Step.toValue)]

/-- A finding of a review as a value. -/
def Finding.toValue (f : Finding) : Value :=
  .obj
    [("field", .str f.field), ("message", .str f.message), ("severity", .str f.severity.name),
      ("suggestion", (f.suggestion.map Value.str).getD .null)]

/-- The report of a review as a value. -/
def Report.toValue (r : Report) : Value :=
  .obj
    [("errors", .list (r.errors.map Finding.toValue)),
      ("warnings", .list (r.warnings.map Finding.toValue)),
      ("info", .list (r.info.map Finding.toValue)), ("is_valid", .bool r.isValid)]

/-- An answer: a status code and a body. -/
structure Response where
  status : Nat
  body : Value

namespace Response

/-- Sends an answer that succeeds. -/
def send (status : Nat) (body : Value) : Except Fault Response :=
  if body.leaves.any Value.isBroken then .error .brokenText else .ok ⟨status, body.sent⟩

/-- The answer to a body that does not fit. -/
def unfit (issues : List Issue) : Except Fault Response :=
  let inputs := Value.list (issues.map (·.input.repeated))
  if !inputs.leaves.all Value.isFinite then .error .infiniteInput
  else if inputs.leaves.any Value.isBroken || inputs.names.any Half.isIn then .error .brokenInput
  else .ok ⟨422, .obj [("detail", .list (issues.map Issue.toValue))]⟩

/-- The answer to a body that cannot be read. -/
def unreadable : Response := ⟨400, .obj [("detail", .str "There was an error parsing the body")]⟩

/-- The answer to a patch that holds this many explicit nulls. -/
def nulls (count : Nat) : Response :=
  let noun := if count = 1 then "error" else "errors"
  ⟨422, .obj [("detail", .str s!"{count} validation {noun} for GameState")]⟩

end Response

end MapEvents
