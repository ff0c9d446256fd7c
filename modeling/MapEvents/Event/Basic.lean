import MapEvents.Condition.Basic
/-!
# Events

An event has a trigger, which says when it may fire and how often, and a list of actions. Actions
are addressed by their ids: each names its successor, and branches name others. The first action of
the list is the entry. Everything else on an event is for the editor.
-/

namespace MapEvents

/-- How often an event may fire. -/
inductive RepeatKind where
  | once
  | always
  | count
  | daily
  | custom
  deriving DecidableEq

namespace RepeatKind

/-- All kinds. -/
def all : List RepeatKind := [once, always, count, daily, custom]

/-- Name of the kind in data. -/
def name : RepeatKind → String
  | once => "once"
  | always => "always"
  | count => "count"
  | daily => "daily"
  | custom => "custom"

end RepeatKind

/-- What makes an event fire. -/
inductive TriggerKind where
  | auto
  | interact
  | contact
  | item
  | step
  | time
  | flag
  | random
  | battle
  | combo
  | custom
  deriving DecidableEq

namespace TriggerKind

/-- All kinds. -/
def all : List TriggerKind :=
  [auto, interact, contact, item, step, time, flag, random, battle, combo, custom]

/-- Name of the kind in data. -/
def name : TriggerKind → String
  | auto => "auto"
  | interact => "interact"
  | contact => "contact"
  | item => "item"
  | step => "step"
  | time => "time"
  | flag => "flag"
  | random => "random"
  | battle => "battle"
  | combo => "combo"
  | custom => "custom"

end TriggerKind

/-- A limit on how often an event fires. -/
structure RepeatPolicy where
  kind : RepeatKind
  /-- How often an event with a count policy may fire; absent and zero mean no limit. -/
  maxCount : Option Int

/-- When an event fires. -/
structure Trigger where
  kind : TriggerKind
  conditions : List Condition
  policy : Option RepeatPolicy

/-- A successor that is taken if its condition holds. -/
structure Branch where
  /-- Id of the condition. -/
  condition : String
  /-- Id of the action. -/
  target : String
  deriving DecidableEq

/-- One action of an event. -/
structure Action where
  id : String
  /-- Tag that selects the handler; unknown tags are valid. -/
  type : String
  params : Data
  /-- Conditions under which the action runs; the walk goes on in any case. -/
  conditions : Option (List Condition)
  /-- Id of the successor. -/
  next : Option String
  branches : List Branch

/-- An event as the editor writes it, without what only the editor uses. -/
structure Event where
  id : String
  type : String
  trigger : Trigger
  actions : List Action
  enabled : Bool
  /-- Of several events for one trigger, those with a higher priority fire first. -/
  priority : Int
  name : String

end MapEvents
