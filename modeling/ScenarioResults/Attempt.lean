/-!
# Attempts

Recomputing derived state can stop halfway, when a sum of durations is out of range. An `Attempt` is
then `halted` and carries the value as it was left, so that what an interrupted computation exposes can
be stated; a completed one is `done`.
-/

namespace ScenarioResults

/-- A computation that updates a value and may stop halfway, which leaves the value updated in part.
-/
inductive Attempt (α : Type) where
  | done (value : α)
  | halted (value : α)
  deriving DecidableEq, Repr, Inhabited

namespace Attempt

variable {α β : Type}

/-- The value as it was left. -/
def value : Attempt α → α
  | done a | halted a => a

/-- The value of a completed attempt. -/
def done? : Attempt α → Option α
  | done a => some a
  | halted _ => none

/-- Apply a function to the value, complete or not. -/
def map (f : α → β) : Attempt α → Attempt β
  | done a => done (f a)
  | halted a => halted (f a)

/-- Continue a completed attempt; one that stopped stays as it is. -/
def andThen (x : Attempt α) (next : α → Attempt α) : Attempt α :=
  match x with
  | done a => next a
  | halted a => halted a

/-- Continue with a result that may be missing, stopping with `a` when it is. -/
def require {γ : Type} (result : Option γ) (a : α) (next : γ → Attempt α) : Attempt α :=
  match result with
  | some c => next c
  | none => halted a

/-- Update the members of a list from the left, stopping at the first that stops. -/
def each (f : α → Attempt α) : List α → Attempt (List α)
  | [] => done []
  | a :: as =>
    match f a with
    | done b => (each f as).map (b :: ·)
    | halted b => halted (b :: as)

end Attempt

end ScenarioResults
