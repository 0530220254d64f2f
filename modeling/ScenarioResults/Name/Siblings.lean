/-!
# Names unique among siblings

A parent keeps the names it has handed out. The first claim of a base gets the base itself; later
claims get the base with `_2`, `_3` and so on, passing over candidates that are taken by other means.
The next number to try is remembered for each base, so that a number once passed is not tried again.
Nothing handed out is ever taken back.
-/

namespace ScenarioResults.Name

/-- The base followed by an underscore and a number. -/
def suffixed (base : String) (k : Nat) : String :=
  base ++ "_" ++ toString k

/-- The names handed out within one collection, the latest first, and for each base claimed more
than once the next number to try. -/
structure Siblings where
  taken : List String := []
  nextSuffix : List (String × Nat) := []
  deriving DecidableEq, Repr, Inhabited

namespace Siblings

/-- Whether the name has been handed out. -/
def isTaken (s : Siblings) (name : String) : Bool :=
  s.taken.contains name

/-- The number from which the search for a free suffix of the base starts. -/
def nextFor (s : Siblings) (base : String) : Nat :=
  (s.nextSuffix.lookup base).getD 2

/-- The first number from `start` on whose suffixed name is free. One candidate more than there are
taken names is enough, since the candidates differ. -/
def firstFree (s : Siblings) (base : String) (start : Nat) : Nat :=
  ((List.range' start (s.taken.length + 1)).find? fun k => !s.isTaken (suffixed base k)).getD start

/-- Record a name as handed out. -/
def take (s : Siblings) (name : String) : Siblings :=
  { s with taken := name :: s.taken }

/-- Remember the next number to try for a base. -/
def setNext (s : Siblings) (base : String) (k : Nat) : Siblings :=
  { s with nextSuffix := (base, k) :: s.nextSuffix.filter (·.1 != base) }

/-- Hand out a name derived from the base. -/
def claim (s : Siblings) (base : String) : String × Siblings :=
  if s.isTaken base then
    let k := s.firstFree base (s.nextFor base)
    (suffixed base k, (s.setNext base (k + 1)).take (suffixed base k))
  else
    (base, s.take base)

/-- Hand out exactly this name; the flag says whether it was free. -/
def reserve (s : Siblings) (name : String) : Bool × Siblings :=
  if s.isTaken name then (false, s) else (true, s.take name)

end Siblings

end ScenarioResults.Name
