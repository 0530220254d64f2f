import ScenarioResults.Duration
import ScenarioResults.Outcome

/-!
# Counts

Pass, fail and skip counters with the time spent. A scenario, whatever it holds, counts as one unit;
the counters of larger groups are component-wise sums. Only the time can be out of range, so a sum is
missing exactly when the sum of the durations is.
-/

namespace ScenarioResults

/-- Pass, fail and skip counters with the total time spent. -/
@[ext]
structure Counts where
  pass : Nat := 0
  fail : Nat := 0
  skip : Nat := 0
  duration : Duration := Duration.zero
  deriving DecidableEq, Repr, Inhabited

/-- Counters of a single step or hook. -/
def Outcome.counts (outcome : Outcome) (duration : Duration) : Counts :=
  { pass := outcome.isPass.toNat
    fail := outcome.isFailure.toNat
    skip := outcome.isSkip.toNat
    duration }

namespace Counts

/-- Counters of nothing. -/
def zero : Counts := {}

/-- Counters of one unit: failed, else skipped, else passed. -/
def ofUnit (failed skipped : Bool) (duration : Duration) : Counts :=
  { pass := (!failed && !skipped).toNat
    fail := failed.toNat
    skip := (skipped && !failed).toNat
    duration }

/-- Number of units counted. -/
def total (c : Counts) : Nat := c.pass + c.fail + c.skip

/-- Whether nothing failed; nothing at all has passed. -/
def isPassed (c : Counts) : Bool := c.fail == 0

/-- Component-wise sum, `none` when the time is out of range. -/
def add? (a b : Counts) : Option Counts :=
  (a.duration.add? b.duration).map fun duration =>
    { pass := a.pass + b.pass, fail := a.fail + b.fail, skip := a.skip + b.skip, duration }

/-- Sum of a list of counters from the left. -/
def sum? (cs : List Counts) : Option Counts :=
  cs.foldlM add? zero

/-- One unit has exactly one verdict. -/
theorem total_ofUnit (failed skipped : Bool) (duration : Duration) :
    (ofUnit failed skipped duration).total = 1 := by
  cases failed <;> cases skipped <;> rfl

end Counts

end ScenarioResults
