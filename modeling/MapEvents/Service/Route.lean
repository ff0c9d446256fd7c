import MapEvents.Json.Reader
import MapEvents.Schema.Check
/-!
# Routes and bodies of requests

A request names a method and a path, which lead to one of the service's routes, and it may carry a
body. `Body.read` gives the value of a body, and `Body.check` the data of a record that the value
stands for; every path in a report on a body starts at the body.
-/

namespace MapEvents

/-- A request method. -/
inductive Method where
  | get
  | post
  | patch
  deriving DecidableEq

/-- What the service can be asked for. -/
inductive Route where
  | healthcheck
  | info
  | startSession
  | readState
  | patchState
  | executeEvent
  | dispatchTrigger
  | reviewEvent
  deriving DecidableEq

namespace Route

/-- The route behind a method and a path. -/
def find? : Method → String → Option Route
  | .get, "/healthcheck" => some healthcheck
  | .get, "/info" => some info
  | .post, "/session" => some startSession
  | .get, "/state" => some readState
  | .patch, "/state" => some patchState
  | .post, "/events/execute" => some executeEvent
  | .post, "/events/dispatch" => some dispatchTrigger
  | .post, "/events/validate" => some reviewEvent
  | _, _ => none

/-- Whether the route reads the body of its request. -/
def readsBody : Route → Bool
  | healthcheck => false
  | info => false
  | readState => false
  | _ => true

end Route

/-- The body of a request. -/
inductive Body where
  | absent
  | value (v : Value)
  /-- Plain characters, which are sent in UTF-8. -/
  | text (s : String)

/-- Why a body is not taken. -/
inductive Body.Refusal where
  /-- It cannot be read at all. -/
  | unreadable
  | unfit (issues : List Issue)

namespace Body

/-- The value of a body; an absent body and an empty text have none. -/
def read : Body → Except Refusal (Option Value)
  | absent => .ok none
  | value v => .ok (some v)
  | text "" => .ok none
  | text s =>
    match Json.read s with
    | .ok v => .ok (some v)
    | .error .unreadable => .error .unreadable
    | .error (.malformed offset) =>
      .error (.unfit [⟨.malformedBody, [.key "body", .index offset], .obj []⟩])

/-- Data of a record that the value of a body stands for. -/
def check (fields : Record) : Option Value → Checked fields.Of
  | none => .error [⟨.missing, [.key "body"], .null⟩]
  | some v => ((Shape.record fields).check .notReadable v).under (.key "body")

end Body

end MapEvents
