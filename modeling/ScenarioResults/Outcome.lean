import ScenarioResults.Text.Blank

/-!
# Outcomes of steps and hooks

Every step and hook ends in one of four outcomes. Status labels are read once, at the boundary;
later decisions go through `isFailure` and `isSkip`, so that the precedence of failure over skip and
of skip over pass is stated in one place, `rollup`.
-/

namespace ScenarioResults

/-- How a single step or hook ended. A skipped one was not run; an undefined one has no step
definition that matches its text. -/
inductive Outcome where
  | passed
  | failed
  | skipped
  | undefined
  deriving DecidableEq, Repr, Inhabited

namespace Outcome

/-- Whether the outcome counts as a pass. -/
def isPass : Outcome → Bool
  | passed => true
  | _ => false

/-- Whether the outcome counts as a failure; missing automation does. -/
def isFailure : Outcome → Bool
  | failed | undefined => true
  | _ => false

/-- Whether the outcome counts as a skip. -/
def isSkip : Outcome → Bool
  | skipped => true
  | _ => false

/-- The label written in reports. -/
def label : Outcome → String
  | passed => "passed"
  | failed => "failed"
  | skipped => "skipped"
  | undefined => "undefined"

/-- Read a label, ignoring surrounding blanks and ASCII case. -/
def ofLabel? (text : String) : Option Outcome :=
  match Text.folded text with
  | "passed" => some passed
  | "failed" => some failed
  | "skipped" => some skipped
  | "undefined" => some undefined
  | _ => none

/-- Read a report's status label, where `pending` stands for a skip. -/
def ofStatus? (text : String) : Option Outcome :=
  if Text.folded text = "pending" then some skipped else ofLabel? text

end Outcome

/-- Whether a group of outcomes failed and whether it skipped, which it does only when none of them
is a failure. -/
structure Flags where
  failed : Bool := false
  skipped : Bool := false
  deriving DecidableEq, Repr, Inhabited

/-- Combine outcomes: any failure fails the group, and a skip counts only without a failure. -/
def rollup (outcomes : List Outcome) : Flags :=
  let failed := outcomes.any Outcome.isFailure
  { failed, skipped := outcomes.any Outcome.isSkip && !failed }

/-- A group never fails and skips at once. -/
theorem rollup_exclusive (outcomes : List Outcome) :
    ((rollup outcomes).failed && (rollup outcomes).skipped) = false := by
  unfold rollup
  cases outcomes.any Outcome.isFailure <;> simp

end ScenarioResults
