import MapEvents.Value.Equality
/-!
# What can go wrong

An `Issue` is one reason why data does not fit its shape, with the path to the place and the value
found there. A `Fault` ends a step: rejected data, a misused operation, a number out of range, a
collaborator's own error, a chain cut short, or an answer that cannot be sent. Each fault is a
cause; `Fault.message?` gives its wording where it has one.
-/

namespace MapEvents

/-- One step of a path into nested data. -/
inductive Step where
  | key (name : String)
  | index (position : Nat)
  deriving DecidableEq

/-- Why a piece of data does not fit. -/
inductive IssueKind where
  | missing
  | notRecord
  | notReadable
  | notList
  | notMap
  | notText
  | notChoice
  | notWhole
  | unreadableWhole
  | oversizedWhole
  | fractionalWhole
  | infiniteWhole
  | belowMinimum
  | notReal
  | unreadableReal
  | notSwitch
  | unreadableSwitch
  | notMoment
  | unreadableMoment
  | unreadableDate
  | malformedBody
  deriving DecidableEq

/-- Short name of the kind in a report. -/
def IssueKind.code : IssueKind → String
  | .missing => "missing"
  | .notRecord => "model_type"
  | .notReadable => "model_attributes_type"
  | .notList => "list_type"
  | .notMap => "dict_type"
  | .notText => "string_type"
  | .notChoice => "enum"
  | .notWhole => "int_type"
  | .unreadableWhole => "int_parsing"
  | .oversizedWhole => "int_parsing_size"
  | .fractionalWhole => "int_from_float"
  | .infiniteWhole => "finite_number"
  | .belowMinimum => "greater_than_equal"
  | .notReal => "float_type"
  | .unreadableReal => "float_parsing"
  | .notSwitch => "bool_type"
  | .unreadableSwitch => "bool_parsing"
  | .notMoment => "datetime_type"
  | .unreadableMoment => "datetime_parsing"
  | .unreadableDate => "datetime_from_date_parsing"
  | .malformedBody => "json_invalid"

/-- One reason why data does not fit its shape, and where. -/
structure Issue where
  kind : IssueKind
  path : List Step
  /-- The value that does not fit; of a missing field, the object in which it is missing. -/
  input : Value
  deriving DecidableEq

/-- The issue seen from one level further out. -/
def Issue.under (step : Step) (i : Issue) : Issue := { i with path := step :: i.path }

/-- Why a setting is refused. -/
inductive SettingFault where
  | notWhole (name quoted : String)
  | notReal (name quoted : String)
  | negative (name : String)
  deriving DecidableEq

/-- Wording of a refused setting. -/
def SettingFault.message : SettingFault → String
  | .notWhole name quoted => s!"{name} must be a int, got {quoted}"
  | .notReal name quoted => s!"{name} must be a float, got {quoted}"
  | .negative name => s!"{name} must not be negative"

/-- What ends a step before its result. -/
inductive Fault where
  /-- Data that does not fit its shape. -/
  | invalid (issues : List Issue)
  /-- An update names no field of the game state. -/
  | unknownField (name : String)
  /-- A number is to be added to a flag that holds a text. -/
  | textFlag (key : String)
  /-- The clock is set to a time without a zone. -/
  | zonelessClock
  /-- A time without zone on the first day of the calendar, for which no zone can be looked up. -/
  | unplaceableTime
  /-- A time or a span of time leaves the years 1 to 9999. -/
  | timeOutOfRange
  /-- An integer is too large for a double, or an infinity is to become an integer. -/
  | numberOutOfRange
  /-- Not-a-number, or a text that is no number, is to become an integer. -/
  | unreadableNumber
  /-- A value of a kind that the operation does not take. -/
  | wrongKind
  /-- A treasure entry without an id. -/
  | missingId
  /-- A handler or the host answered with something that is no result. -/
  | unknownResult
  /-- A transition that does not end an execution is to resolve it. -/
  | notTerminal (name : String)
  /-- A transition that is unknown or not possible in the current phase. -/
  | notAllowed (name : String)
  /-- A name that belongs to a part of the execution is taken for a transition. -/
  | notTransition (name : String)
  /-- A chain took more steps than allowed. -/
  | stepLimit (event : String) (limit : Int) (action : String)
  /-- A chain ran longer than allowed. -/
  | timeLimit
  /-- A collaborator raised an error of its own. -/
  | collaborator (message : String)
  /-- A setting is refused. -/
  | setting (cause : SettingFault)
  /-- A text with half a character is to be sent. -/
  | brokenText
  /-- Issues are to be reported, and an input that they repeat holds half a character. -/
  | brokenInput
  /-- Issues are to be reported, and an input that they repeat holds a number that is not finite. -/
  | infiniteInput
  deriving DecidableEq

namespace Fault

/-- Wording of a fault, for those that have one. -/
def message? : Fault → Option String
  | .unknownField name => some s!"Unknown game state field: {name}"
  | .textFlag key => some s!"Flag '{key}' holds a string and cannot be incremented"
  | .zonelessClock => some "FixedClock requires a timezone-aware datetime"
  | .notTerminal name => some s!"Not a terminal transition: {name}"
  | .stepLimit event limit action =>
    some s!"Event '{event}' exceeded {limit} chain steps (at action '{action}')"
  | .collaborator message => some message
  | .setting cause => some cause.message
  | _ => none

end Fault

end MapEvents
