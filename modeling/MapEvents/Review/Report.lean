/-!
# Review reports

A review of an event finds errors, warnings and remarks. Each finding names the field it is about
and may suggest a remedy. An event is valid if no finding is an error.
-/

namespace MapEvents

/-- How grave a finding is. -/
inductive Severity where
  | error
  | warning
  | info
  deriving DecidableEq

/-- Name of a severity. -/
def Severity.name : Severity → String
  | .error => "error"
  | .warning => "warning"
  | .info => "info"

/-- One finding of a review. -/
structure Finding where
  /-- What the finding is about. -/
  field : String
  message : String
  severity : Severity
  suggestion : Option String
  deriving DecidableEq

namespace Finding

/-- An error. -/
def error (field message : String) (suggestion : Option String) : Finding :=
  ⟨field, message, .error, suggestion⟩

/-- A warning. -/
def warning (field message : String) (suggestion : Option String) : Finding :=
  ⟨field, message, .warning, suggestion⟩

/-- A remark. -/
def info (field message : String) (suggestion : Option String) : Finding :=
  ⟨field, message, .info, suggestion⟩

end Finding

/-- The findings of a review by severity, each in the order of the review. -/
structure Report where
  errors : List Finding
  warnings : List Finding
  info : List Finding

namespace Report

/-- The report of these findings. -/
def ofFindings (fs : List Finding) : Report :=
  { errors := fs.filter (·.severity = .error)
    warnings := fs.filter (·.severity = .warning)
    info := fs.filter (·.severity = .info) }

/-- Whether there are no errors. -/
def isValid (r : Report) : Bool := r.errors.isEmpty

end Report

end MapEvents
