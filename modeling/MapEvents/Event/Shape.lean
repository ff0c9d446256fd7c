import MapEvents.Event.Basic
/-!
# Shape of an event

The shapes of an event and its parts, and the passage from data of these shapes to the types of
`MapEvents.Event.Basic`. What only the editor uses is checked and then left out.
-/

namespace MapEvents

namespace RepeatPolicy

/-- Fields of a repeat policy. -/
abbrev record : Record :=
  .has "type" (.str "always") (.choiceOf RepeatKind.all RepeatKind.name) <|
  .hasAs "max_count" "maxCount" .null (.optional .whole) <|
  .hasAs "custom_policy_name" "customPolicyName" .null (.optional .text) <|
  .has "properties" (.obj []) .data .done

/-- A repeat policy from its fields. -/
def ofData : record.Of → RepeatPolicy := fun (kind, maxCount, _, _, ()) =>
  { kind := Shape.chosen RepeatKind.all RepeatKind.name kind
    maxCount }

end RepeatPolicy

namespace Trigger

/-- Fields of a trigger. -/
abbrev record : Record :=
  .has "type" (.str "interact") (.choiceOf TriggerKind.all TriggerKind.name) <|
  .has "conditions" (.list []) (.list (.record Condition.record)) <|
  .hasAs "repeat_policy" "repeatPolicy" .null (.optional (.record RepeatPolicy.record)) <|
  .has "properties" (.obj []) .data .done

/-- A trigger from its fields. -/
def ofData : record.Of → Trigger := fun (kind, conditions, policy, _, ()) =>
  { kind := Shape.chosen TriggerKind.all TriggerKind.name kind
    conditions := List.map Condition.ofData conditions
    policy := Option.map RepeatPolicy.ofData policy }

end Trigger

namespace Branch

/-- Fields of a branch. -/
abbrev record : Record :=
  .needsAs "condition_id" "conditionId" .text <| .needsAs "action_id" "actionId" .text .done

/-- A branch from its fields. -/
def ofData : record.Of → Branch := fun (condition, target, ()) => ⟨condition, target⟩

end Branch

namespace Action

/-- Fields of an action. -/
abbrev record : Record :=
  .needs "id" .text <|
  .needs "type" .text <|
  .has "params" (.obj []) .data <|
  .has "conditions" .null (.optional (.list (.record Condition.record))) <|
  .hasAs "next_action_id" "nextActionId" .null (.optional .text) <|
  .hasAs "branch_actions" "branchActions" (.list []) (.list (.record Branch.record)) <|
  .has "properties" (.obj []) .data .done

/-- An action from its fields. -/
def ofData : record.Of → Action := fun (id, type, params, conditions, next, branches, _, ()) =>
  { id
    type
    params
    conditions := Option.map (List.map Condition.ofData) conditions
    next
    branches := List.map Branch.ofData branches }

/-- The action that a value stands for. -/
def read (v : Value) : Checked Action := ((Shape.record record).read v).map ofData

end Action

namespace Event

/-- Fields of the place of an event on the map. -/
abbrev placeRecord : Record := .needs "x" .whole <| .needs "y" .whole .done

/-- Fields of an event. -/
abbrev record : Record :=
  .needs "id" .text <|
  .has "type" (.str "custom") .text <|
  .has "trigger" (.obj []) (.record Trigger.record) <|
  .has "actions" (.list []) (.list (.record Action.record)) <|
  .has "enabled" (.bool true) (.leaf .switch) <|
  .has "priority" (.int 1) .whole <|
  .has "name" (.str "") .text <|
  .has "description" .null (.optional .text) <|
  .has "position" .null (.optional (.record placeRecord)) <|
  .has "appearance" (.obj []) .data <|
  .has "properties" (.obj []) .data <|
  .has "flags" (.obj []) .data <|
  .has "metadata" (.obj []) .data .done

/-- Shape of an event. -/
abbrev shape : Shape := .record record

/-- An event from its fields. -/
def ofData : record.Of → Event :=
  fun (id, type, trigger, actions, enabled, priority, name, _, _, _, _, _, _, ()) =>
  { id
    type
    trigger := Trigger.ofData trigger
    actions := List.map Action.ofData actions
    enabled
    priority
    name }

/-- The event that a value stands for. -/
def read (v : Value) : Checked Event := (shape.read v).map ofData

end Event

end MapEvents
