import MapEvents.Fault
import MapEvents.Text.NumberText
import MapEvents.Text.Quoted
import MapEvents.Text.UpperCase
/-!
# Settings of a session

Settings come from named texts. A number that is absent or blank is not set; otherwise it has to be
readable and must not be negative. The first setting that is refused decides.
-/

namespace MapEvents

/-- Settings of a session. -/
structure Settings where
  /-- Most steps of one chain. -/
  maxChainSteps : Option Int
  /-- Longest time of one chain, in seconds. -/
  chainTimeout : Option Double
  /-- Seed of the random source. -/
  seed : Option Int
  /-- How much is reported. -/
  logLevel : String

namespace Settings

/-- Names of the settings. -/
def maxChainStepsName : String := "DUNGEON_ENGINE_MAX_CHAIN_STEPS"

/-- Name of the time limit. -/
def chainTimeoutName : String := "DUNGEON_ENGINE_CHAIN_TIMEOUT_S"

/-- Name of the seed. -/
def seedName : String := "DUNGEON_ENGINE_RNG_SEED"

/-- Name of the log level. -/
def logLevelName : String := "DUNGEON_ENGINE_LOG_LEVEL"

/-- A text without the white space around it, unless nothing is left. -/
def trimmed? (text : Option String) : Option String :=
  let s := String.ofList (Blank.trim Blank.isSpace ((text.getD "").toList))
  if s = "" then none else some s

/-- Reads a number. `number?` finds it in the trimmed text, and `negative` tells which numbers are
below zero. -/
def readNumber {α : Type} (number? : String → Option α) (negative : α → Bool)
    (unreadable : String → String → SettingFault) (name : String) (text : Option String) :
    Except SettingFault (Option α) :=
  match trimmed? text with
  | none => .ok none
  | some s =>
    match number? s with
    | none => .error (unreadable name (Quoted.quote s))
    | some x => if negative x then .error (.negative name) else .ok (some x)

/-- Reads a whole number. -/
def readWhole : String → Option String → Except SettingFault (Option Int) :=
  readNumber NumberText.readWhole? (· < 0) .notWhole

/-- Reads a double. -/
def readReal : String → Option String → Except SettingFault (Option Double) :=
  readNumber NumberText.readReal? (·.lt .zero) .notReal

/-- Reads the settings from named texts. -/
def read (text? : String → Option String) : Except SettingFault Settings := do
  let maxChainSteps ← readWhole maxChainStepsName (text? maxChainStepsName)
  let chainTimeout ← readReal chainTimeoutName (text? chainTimeoutName)
  let seed ← readWhole seedName (text? seedName)
  let logLevel := UpperCase.upper ((text? logLevelName).getD "INFO")
  return { maxChainSteps, chainTimeout, seed, logLevel }

end Settings

end MapEvents
