import MapEvents.Chain.Cycle
import MapEvents.Review.Report
import MapEvents.Action.Standard
import MapEvents.Text.Blank
import MapEvents.Text.Half
/-!
# Reviewing events

The checks that the editor shows beside an event: required fields, the trigger, the parameters of
each action, the graph of actions, and combinations that are rarely meant. Findings never keep an
event from running.
-/

namespace MapEvents

namespace Review

/-- The finding if the condition holds. -/
def findingIf (b : Bool) (f : Finding) : List Finding := if b then [f] else []

/-- Most actions of an event without a warning. -/
def maxActions : Int := 20

/-- Most characters of a message without a warning. -/
def maxMessageLength : Nat := 500

/-- Checks id, name and type of the event. -/
def requiredFields (e : Event) : List Finding :=
  findingIf (Blank.isBlank e.id) (.error "id" "Event id is required" none) ++
  findingIf (Blank.isBlank e.name) (.error "name" "Event name is required"
    (some "Use a descriptive name, e.g. 'Treasure chest'")) ++
  findingIf (e.type = "") (.error "type" "Event type is required" none)

/-- Checks the repeat policy. -/
def repeatPolicy : Option RepeatPolicy → List Finding
  | none =>
    [.warning "trigger.repeatPolicy" "No repeat policy set; the event will fire every time"
      (some "Set a repeat policy to limit how often the event runs")]
  | some p =>
    findingIf (p.kind = .count && p.maxCount.all (· ≤ 0))
      (.error "trigger.repeatPolicy.maxCount" "Count policy needs a positive maxCount"
        (some "Use a number of 1 or more"))

/-- Whether the probability is a number from zero to one. -/
def isChance (x : Double) : Bool := Double.zero.le x && x.le (Double.ofInt 1)

/-- Checks the trigger condition at a position. -/
def condition (c : Condition) (i : Nat) : List Finding :=
  findingIf ((c.kind = .flag || c.kind = .item) && (c.key.getD "") = "")
    (.error s!"trigger.conditions[{i}].key"
      s!"Condition {i + 1} ({c.kind.name}) has no key" none) ++
  findingIf (c.kind = .random && c.probability.any (!isChance ·))
    (.error s!"trigger.conditions[{i}].probability"
      s!"Condition {i + 1} probability must be within [0, 1]" none)

/-- Findings for the members of a list, which are numbered from `start`. -/
def numbered {α : Type} (check : α → Nat → List Finding) : (start : Nat) → List α → List Finding
  | _, [] => []
  | start, a :: rest => check a start ++ numbered check (start + 1) rest

/-- Checks the trigger. -/
def trigger (e : Event) : List Finding :=
  repeatPolicy e.trigger.policy ++ numbered condition 0 e.trigger.conditions

/-- Whether a parameter is a number. -/
def isNumber : Option Value → Bool
  | some (.int _) => true
  | some (.float _) => true
  | _ => false

/-- Whether a parameter is a positive integer. -/
def isPositive : Option Value → Bool
  | some (.int n) => 0 < n
  | _ => false

/-- Whether a parameter is present and counts as true. -/
def isGiven (v : Option Value) : Bool := v.any Value.truthy

/-- Checks the text of a message. -/
def messageText (i : Nat) : Option Value → List Finding
  | some (.str s) =>
    if Blank.isBlank s then
      [.error s!"actions[{i}].params.text" s!"Message action {i + 1} needs text" none]
    else
      findingIf (maxMessageLength < Half.length s)
        (.warning s!"actions[{i}].params.text" s!"Message action {i + 1} text is too long"
          (some s!"Keep messages under {maxMessageLength} characters"))
  | _ => [.error s!"actions[{i}].params.text" s!"Message action {i + 1} needs text" none]

/-- Checks the parameters of an action. -/
def params (a : Action) (i : Nat) : List Finding :=
  let get (key : String) := Fields.find? key a.params
  if a.type = StandardAction.message.tag then messageText i (get "text")
  else if a.type = StandardAction.warp.tag then
    findingIf (!(isNumber (get "x") && isNumber (get "y")))
      (.error s!"actions[{i}].params" s!"Warp action {i + 1} needs numeric x and y" none)
  else if a.type = StandardAction.item.tag then
    findingIf (!isGiven (get "itemId"))
      (.error s!"actions[{i}].params.itemId" s!"Item action {i + 1} needs an itemId" none) ++
    findingIf (!isPositive (get "count"))
      (.error s!"actions[{i}].params.count" s!"Item action {i + 1} needs a positive count" none)
  else if a.type = StandardAction.flag.tag then
    findingIf (!isGiven (get "key"))
      (.error s!"actions[{i}].params.key" s!"Flag action {i + 1} needs a key" none)
  else if a.type = StandardAction.battle.tag then
    findingIf (!isGiven (get "enemyId"))
      (.warning s!"actions[{i}].params.enemyId" s!"Battle action {i + 1} has no enemyId" none)
  else []

/-- Checks that the id of an action is given and its own. -/
def actionId (all : List Action) (a : Action) (i : Nat) : List Finding :=
  if a.id = "" then [.error s!"actions[{i}].id" s!"Action {i + 1} needs an id" none]
  else
    findingIf (1 < all.countP (·.id = a.id))
      (.error s!"actions[{i}].id" s!"Duplicate action id '{a.id}'" none)

/-- Checks an action at a position. -/
def action (all : List Action) (a : Action) (i : Nat) : List Finding :=
  actionId all a i ++
    if a.type = "" then [.error s!"actions[{i}].type" s!"Action {i + 1} needs a type" none]
    else params a i

/-- Checks the actions, of which there should be at least one and at most `most`. -/
def actions (most : Int) (e : Event) : List Finding :=
  if e.actions.isEmpty then
    [.warning "actions" "Event has no actions" (some "Add at least one action")]
  else
    findingIf (most < e.actions.length)
      (.warning "actions" "Event has too many actions"
        (some s!"Keep it to {most} actions or fewer")) ++
    numbered (action e.actions) 0 e.actions

/-- Warns of pointers to missing actions. -/
def danglingPointers (as : List Action) : List Finding :=
  (Chain.dangling as).map fun (source, target) =>
    .warning "actions"
      s!"Action '{source}' points at missing action '{target}'; the chain ends there" none

/-- Ids of the actions that the walk never comes to. -/
def unreachable (as : List Action) : List String :=
  let found := Chain.reachable as
  (as.map (·.id)).filter fun id => id ≠ "" && !found.contains id

/-- Remarks on actions that the walk never comes to. -/
def unreachableActions (as : List Action) : List Finding :=
  let ids := unreachable as
  let listed := ", ".intercalate ids
  findingIf (!ids.isEmpty)
    (.info "actions" s!"Actions never reached from the entry action: {listed}"
      (some "Link them with nextActionId or a branch"))

/-- Warns of a cycle. -/
def cycle (as : List Action) : List Finding :=
  match Chain.cycle as with
  | none => []
  | some ids =>
    let path := " -> ".intercalate ids
    [.warning "actions" s!"Action chain loops: {path}"
      (some "A loop without an exit never finishes unless a step limit is configured")]

/-- Checks the graph of actions. -/
def chain (e : Event) : List Finding :=
  danglingPointers e.actions ++ unreachableActions e.actions ++ cycle e.actions

/-- Checks for combinations that are rarely meant. -/
def combination (e : Event) : List Finding :=
  findingIf (e.trigger.kind = .auto && e.trigger.policy.all (·.kind = .always))
    (.warning "combination" "Auto trigger with an always-repeat policy fires on every check"
      (some "Add trigger conditions or limit the repeat policy")) ++
  findingIf (1 < e.actions.countP (·.type = StandardAction.battle.tag))
    (.warning "actions" "Multiple battle actions in one event" none)

/-- One of the checks. -/
inductive Check where
  | requiredFields
  | trigger
  /-- The actions, of which there should be at most this many. -/
  | actions (most : Int)
  | chain
  | combination

/-- What a check finds in an event. -/
def Check.run (e : Event) : Check → List Finding
  | .requiredFields => Review.requiredFields e
  | .trigger => Review.trigger e
  | .actions most => Review.actions most e
  | .chain => Review.chain e
  | .combination => Review.combination e

/-- The checks of a full review. -/
def standard : List Check :=
  [.requiredFields, .trigger, .actions maxActions, .chain, .combination]

/-- The report of some checks, made in the given order. -/
def report (checks : List Check) (e : Event) : Report :=
  .ofFindings (checks.flatMap (·.run e))

end Review

/-- The report of a full review. -/
def Event.review (e : Event) : Report := Review.report Review.standard e

end MapEvents
