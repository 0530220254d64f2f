import ScenarioResults.Tree.Lookup

/-!
# Comparing runs

A scenario's counterpart in another run is the scenario with the same path of names. Comparing with
the previous run gives a status; walking back through earlier runs gives the run in which the current
streak of failures began. Asking for a counterpart assigns the scenario's own names first, so each
question also answers with the tree as it is afterwards.
-/

namespace ScenarioResults

/-- How a scenario compares with the previous run. A failure is a regression when the scenario did
not fail before; it is a plain one when it failed before too or there is nothing to compare. A pass
after a failure is fixed. -/
inductive Status where
  | passed
  | skipped
  | failed
  | regression
  | fixed
  deriving DecidableEq, Repr, Inhabited

namespace Status

/-- The label of a status. -/
def label : Status → String
  | passed => "passed"
  | skipped => "skipped"
  | failed => "failed"
  | regression => "regression"
  | fixed => "fixed"

/-- Whether the status counts as a failure. -/
def isFailure : Status → Bool
  | failed | regression => true
  | _ => false

/-- The status of a scenario that did not skip, from whether it failed and whether its counterpart, if
there is one, did. -/
def compare (failed : Bool) (before : Option Bool) : Status :=
  match before, failed with
  | none, true => .failed
  | none, false => .passed
  | some false, false => .passed
  | some false, true => .regression
  | some true, false => .fixed
  | some true, true => .failed

end Status

/-- An earlier run: its number and its results. -/
structure Run where
  number : Nat
  tree : Tree
  deriving Repr, Inhabited

/-- The largest age, that of a 64-bit counter. -/
def longestAge : Nat := 18446744073709551615

namespace Tree

/-- The scenario of `other` with the names that are assigned to the scenario at `id`. -/
def counterpartByName? (t : Tree) (id : ScenarioId) (other : Tree) : Option ScenarioId := do
  let feature ← t.featureName? id.feature
  let scenario ← t.scenarioName? id
  other.scenarioByName? feature scenario

/-- The counterpart of a scenario in another tree. -/
def counterpart? (t : Tree) (id : ScenarioId) (other : Tree) : Option ScenarioId × Tree :=
  let t := t.namePath id
  (t.counterpartByName? id other, t)

/-- Whether the counterpart of a scenario failed, if there is one. -/
def counterpartFailed? (t : Tree) (id : ScenarioId) (other : Tree) : Option Bool :=
  (((t.namePath id).counterpartByName? id other).bind other.scenario?).map ScenarioEntry.isFailed

/-- The status of a scenario compared with the previous run. A skip needs no comparison. -/
def status? (t : Tree) (id : ScenarioId) (previous : Option Tree) : Option Status × Tree :=
  match t.scenario? id with
  | none => (none, t)
  | some e =>
    if e.standing.flags.skipped then (some .skipped, t)
    else
      match previous with
      | none => (some (Status.compare e.isFailed none), t)
      | some other =>
        (some (Status.compare e.isFailed (t.counterpartFailed? id other)), t.namePath id)

/-- The earlier runs, newest first, back to the first in which the counterpart is missing or did not
fail. -/
def streak (t : Tree) (id : ScenarioId) (history : List Run) : List Run :=
  history.takeWhile fun run => t.counterpartFailed? id run.tree == some true

/-- The run in which the current streak of failures began: the last of the streak, or the current run.
A scenario that did not fail has no such run. -/
def failedSince? (t : Tree) (id : ScenarioId) (run : Nat) (history : List Run) : Option Nat × Tree :=
  match t.scenario? id with
  | none => (none, t)
  | some e =>
    if e.isFailed then
      (some (((t.streak id history).getLast?.map Run.number).getD run),
        if history.isEmpty then t else t.namePath id)
    else (none, t)

/-- The distance from the start of the streak to the current run, both counted; 0 without a streak and
never more than `longestAge`. -/
def age (t : Tree) (id : ScenarioId) (run : Nat) (history : List Run) : Nat × Tree :=
  match t.failedSince? id run history with
  | (none, t) => (0, t)
  | (some since, t) => (min (run - since + 1) longestAge, t)

end Tree

end ScenarioResults
