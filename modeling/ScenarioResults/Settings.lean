import ScenarioResults.Text.Blank

/-!
# Settings

The only switch is the ordering of steps. Strict ordering, the default, refuses a step or a binding
that arrives before the previous one is settled; lenient ordering drops the stale one with a warning.
The switch can be set by an environment variable, whose value arrives here as bytes.
-/

namespace ScenarioResults

/-- How a builder treats events out of order: strict ordering refuses a step or binding that
overtakes an unsettled one. -/
structure Settings where
  strict : Bool := true
  deriving DecidableEq, Repr, Inhabited

/-- Why settings could not be loaded: the variable holds a value that is no switch. -/
inductive SettingsError where
  | invalidValue (value : String)
  deriving DecidableEq, Repr, Inhabited

namespace Settings

/-- The environment variable that sets strict ordering. -/
def variableName : String := "CUCUMBER_RESULTS_STRICT_STEP_ORDERING"

/-- Read a switch, ignoring surrounding blanks and ASCII case. -/
def switch? (value : String) : Option Bool :=
  let word := Text.folded value
  if ["1", "true", "yes", "on"].contains word then some true
  else if ["0", "false", "no", "off"].contains word then some false
  else none

/-- Settings from the value of the variable; an unset variable leaves the default. -/
def ofValue? : Option String → Except SettingsError Settings
  | none => .ok {}
  | some value =>
    match switch? value with
    | some strict => .ok { strict }
    | none => .error (.invalidValue value)

/-- Settings from the bytes of the variable; bytes that are no text count as unset. -/
def ofBytes? (value : Option ByteArray) : Except SettingsError Settings :=
  ofValue? (value.bind String.fromUTF8?)

end Settings

/-- The text of a settings error. -/
def SettingsError.message : SettingsError → String
  | invalidValue value =>
    "invalid value '" ++ value ++ "' for " ++ Settings.variableName ++ ", expected a boolean"

end ScenarioResults
