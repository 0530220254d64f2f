import ScenarioResults.Attachment
import ScenarioResults.Counts

/-!
# Recorded results

What a run leaves behind, free of anything derived: features hold scenarios, a scenario holds the
background run for it, its hooks, its steps and references to its attachments. Two trees tell the same
results exactly when their lists of `Feature`s are equal.
-/

namespace ScenarioResults

/-- The result of one executed step. The keyword has its trailing space, and the location is that of
the glue code that ran the step. -/
structure Step where
  keyword : String
  name : String
  line : Option UInt32
  location : Option String
  verdict : Verdict
  deriving DecidableEq, Repr, Inhabited

namespace Step

/-- Settle a declared step, with its binding if it had one. -/
def settle (header : StepHeader) (glue : Option Glue) (verdict : Verdict) : Step :=
  { keyword := header.keyword
    name := header.name
    line := header.line
    location := glue.bind Glue.location
    verdict }

/-- Counters of the step. -/
def counts (s : Step) : Counts := s.verdict.outcome.counts s.verdict.duration

/-- Why the step did not pass: an undefined step names itself, a failed one gives the recorded message,
and the others have nothing to say. -/
def explanation (s : Step) : String :=
  match s.verdict.outcome with
  | .undefined => "Step \"" ++ s.name ++ "\" is undefined"
  | .failed => s.verdict.message.getD ""
  | .passed | .skipped => ""

end Step

/-- The result of a setup or teardown hook, with the location of its code. -/
structure Hook where
  location : Option String
  verdict : Verdict
  deriving DecidableEq, Repr, Inhabited

namespace Hook

/-- A hook from its binding and verdict. -/
def settle (glue : Glue) (verdict : Verdict) : Hook :=
  { location := glue.location, verdict }

/-- Counters of the hook. -/
def counts (h : Hook) : Counts := h.verdict.outcome.counts h.verdict.duration

/-- The recorded message of a hook that failed. -/
def explanation? (h : Hook) : Option String :=
  if h.verdict.outcome.isFailure then h.verdict.message else none

end Hook

/-- A background as run for one scenario, with its steps in order of execution. -/
structure Background where
  keyword : String
  name : String
  line : Option UInt32
  steps : List Step := []
  deriving DecidableEq, Repr, Inhabited

/-- An empty background from its header. -/
def Background.ofHeader (h : BackgroundHeader) : Background :=
  { keyword := h.keyword, name := h.name, line := h.line }

/-- One executed scenario, counted as a single unit. Hooks and steps stand in order of execution;
the attachments are references to what was produced meanwhile. -/
structure Scenario where
  header : Header
  background : Option Background := none
  before : List Hook := []
  steps : List Step := []
  after : List Hook := []
  attachments : List AttachmentRef := []
  deriving DecidableEq, Repr, Inhabited

namespace Scenario

/-- The steps of the background, if there is one. -/
def backgroundSteps (s : Scenario) : List Step :=
  (s.background.map Background.steps).getD []

/-- Every verdict in the scenario, in the order in which failures are explained. -/
def verdicts (s : Scenario) : List Verdict :=
  s.before.map Hook.verdict ++ s.backgroundSteps.map Step.verdict ++ s.steps.map Step.verdict ++
    s.after.map Hook.verdict

/-- The explanation of the first failed hook. -/
def hookExplanation? (hooks : List Hook) : Option String :=
  (hooks.find? (·.verdict.outcome.isFailure)).map fun hook => hook.explanation?.getD ""

/-- The explanation of the first failed step. -/
def stepExplanation? (steps : List Step) : Option String :=
  (steps.find? (·.verdict.outcome.isFailure)).map Step.explanation

/-- The explanation of the first failure among setup hooks, background, steps and teardown hooks, in
this order. -/
def explanation? (s : Scenario) : Option String :=
  hookExplanation? s.before
    |>.or (stepExplanation? s.backgroundSteps)
    |>.or (stepExplanation? s.steps)
    |>.or (hookExplanation? s.after)

end Scenario

/-- A feature as it appeared in one document, with its scenarios in order of execution. -/
structure Feature where
  uri : Option String
  header : Header
  scenarios : List Scenario := []
  deriving DecidableEq, Repr, Inhabited

end ScenarioResults
