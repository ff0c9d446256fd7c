import MapEvents.Event.Shape
import MapEvents.Lifecycle
import MapEvents.State.Shape
/-!
# Shape of requests and answers

What the service is sent and what it answers, beside events and game states themselves.
-/

namespace MapEvents.Service

/-- Fields of a request to execute an event. -/
abbrev executeFields : Record :=
  .needs "event" Event.shape <|
  .hasAs "trigger_data" "triggerData" (.obj []) .data .done

/-- Fields of a request to fire a trigger. -/
abbrev dispatchFields : Record :=
  .needs "events" (.list Event.shape) <|
  .needsAs "trigger_type" "triggerType" .text <|
  .hasAs "trigger_data" "triggerData" (.obj []) .data .done

/-- Fields of the answer to an executed event. -/
abbrev executedFields : Record :=
  .needs "result" Outcome.shape <|
  .needs "trail" (.list .text) <|
  .needs "state" GameState.shape .done

/-- Fields of the outcome of one event of a trigger. -/
abbrev outcomeFields : Record :=
  .needsAs "event_id" "eventId" .text <|
  .needs "result" Outcome.shape .done

/-- Fields of the answer to a fired trigger. -/
abbrev dispatchedFields : Record :=
  .needs "outcomes" (.list (.record outcomeFields)) <|
  .needs "state" GameState.shape .done

/-- A request to execute an event. -/
structure ExecuteRequest where
  event : Event
  data : Data

/-- A request to fire a trigger. -/
structure DispatchRequest where
  events : List Event
  kind : String
  data : Data

/-- A request to execute an event from its fields. -/
def ExecuteRequest.ofData : executeFields.Of → ExecuteRequest := fun (event, data, ()) =>
  ⟨Event.ofData event, data⟩

/-- A request to fire a trigger from its fields. -/
def DispatchRequest.ofData : dispatchFields.Of → DispatchRequest := fun (events, kind, data, ()) =>
  ⟨List.map Event.ofData events, kind, data⟩

/-- The answer to an executed event. -/
def executedValue (o : Outcome) (trail : List Phase) (s : GameState) : Value :=
  (Shape.record executedFields).dump .letter (o.toData, trail.map Phase.name, s.toData, ())

/-- The answer to a fired trigger. -/
def dispatchedValue (os : List (String × Outcome)) (s : GameState) : Value :=
  let outcomes : List outcomeFields.Of := os.map fun (id, o) => (id, o.toData, ())
  (Shape.record dispatchedFields).dump .letter (outcomes, s.toData, ())

end MapEvents.Service
