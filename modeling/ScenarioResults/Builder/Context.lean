/-!
# Contexts of a builder

At any time exactly one context is open. `Context` is the coarse view of it that diagnostics show.
-/

namespace ScenarioResults

/-- What is open while events arrive. A document that has been announced awaits its feature, and a
background awaits the scenario that adopts it. -/
inductive Context where
  | idle
  | uriSeen
  | inFeature
  | inBackground
  | inScenario
  deriving DecidableEq, Repr, Inhabited

/-- The wording of a context in diagnostics. -/
def Context.describe : Context → String
  | idle => "idle"
  | uriSeen => "awaiting a feature"
  | inFeature => "in a feature"
  | inBackground => "in a background"
  | inScenario => "in a scenario"

end ScenarioResults
