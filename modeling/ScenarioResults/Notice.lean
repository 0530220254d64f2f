import ScenarioResults.Builder.Context
import ScenarioResults.Counts
import ScenarioResults.Event
import ScenarioResults.Text.Quoted

/-!
# Notices

Besides its answer, an operation leaves notices: warnings about what it drops, and what it did on the
way. Each constructor is one occasion; `Notice.text` is the only place that words them.
-/

namespace ScenarioResults

/-- How important a notice is, the most important first. -/
inductive Level where
  | warn
  | info
  | debug
  deriving DecidableEq, Repr, Inhabited

namespace Level

/-- The name of a level. -/
def label : Level → String
  | warn => "WARN"
  | info => "INFO"
  | debug => "DEBUG"

/-- Rank of a level, 0 for the most important. -/
def rank : Level → Nat
  | warn => 0
  | info => 1
  | debug => 2

end Level

/-- Something worth telling about an operation: an event arrived, a step, a binding or a background
was dropped, a feature was opened or is missing, the runner wrote something, an outline or its
examples passed, or a document or tree was dealt with. A background that is dropped at the end of
the document is told without an event. -/
inductive Notice where
  | received (event : EventKind) (context : Context)
  | stepAbandoned (step : String) (event : EventKind)
  | stepOvertaken (step pending : String)
  | stepCleared (step : String)
  | bindingOvertaken (location : String)
  | backgroundDiscarded (name : String) (event : Option EventKind)
  | featureOpened (name : String) (uri : Option String)
  | documentWithoutFeature (uri : String)
  | runnerWrote (text : String)
  | outlineSeen (name : String)
  | examplesSeen (name : String)
  | documentBlank (uri : String)
  | documentRead (events : Nat) (path : String)
  | tallied (features : Nat) (counts : Counts)
  | merged (features scenarios total : Nat)
  deriving DecidableEq, Repr, Inhabited

namespace Notice

/-- The importance of a notice. -/
def level : Notice → Level
  | stepAbandoned .. | stepOvertaken .. | bindingOvertaken .. | backgroundDiscarded .. => .warn
  | documentBlank .. | documentRead .. | merged .. => .info
  | received .. | stepCleared .. | featureOpened .. | documentWithoutFeature .. | runnerWrote ..
  | outlineSeen .. | examplesSeen .. | tallied .. => .debug

/-- How a missing or present text is shown. -/
def showOption : Option String → String
  | none => "None"
  | some s => "Some(" ++ Text.quoted s ++ ")"

/-- The text of a notice. -/
def text : Notice → String
  | received event context => event.label ++ " event while " ++ context.describe
  | stepAbandoned step event =>
    "discarding step '" ++ step ++ "' that was never resolved before " ++ event.label
  | stepOvertaken step pending =>
    "step '" ++ step ++ "' received before step '" ++ pending ++
      "' was resolved; discarding the stale step"
  | stepCleared step => "clearing unresolved step '" ++ step ++ "' at end of document"
  | bindingOvertaken location =>
    "match '" ++ location ++ "' received before the previous match was resolved"
  | backgroundDiscarded name none =>
    "discarding background '" ++ name ++ "' that no scenario adopted"
  | backgroundDiscarded name (some event) =>
    "discarding background '" ++ name ++ "' that no scenario adopted before " ++ event.label
  | featureOpened name uri => "feature '" ++ name ++ "' from " ++ showOption uri
  | documentWithoutFeature uri => "document " ++ uri ++ " contained no feature"
  | runnerWrote text => "runner output: " ++ text
  | outlineSeen name => "scenario outline '" ++ name ++ "'"
  | examplesSeen name => "examples '" ++ name ++ "'"
  | documentBlank uri => uri ++ " is empty; no features to read"
  | documentRead events path => "read " ++ toString events ++ " events from " ++ path
  | tallied features counts =>
    "tallied " ++ toString features ++ " features: " ++ toString counts.pass ++ " passed, " ++
      toString counts.fail ++ " failed, " ++ toString counts.skip ++ " skipped"
  | merged features scenarios total =>
    "merged " ++ toString features ++ " features (" ++ toString scenarios ++
      " scenarios) into a tree of " ++ toString total ++ " features"

/-- The line that a notice makes in a log. -/
def line (n : Notice) : String := n.level.label ++ " " ++ n.text

end Notice

end ScenarioResults
