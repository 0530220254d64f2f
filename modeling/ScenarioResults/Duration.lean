/-!
# Durations

A duration is a whole number of nanoseconds, at most `2^64 - 1` seconds and 999 999 999 nanoseconds.
Sums are exact: `add?` and `sum?` give the mathematical sum when it is in range and `none` otherwise.
`sum?_eq_some_iff` says so for a whole list, whatever the partial sums are.
-/

namespace ScenarioResults

/-- A length of time in nanoseconds, bounded by the longest one that can be represented. -/
@[ext]
structure Duration where
  nanos : Nat
  le_longest : nanos ≤ 18446744073709551615 * 1000000000 + 999999999 := by decide
  deriving DecidableEq, Repr

namespace Duration

/-- Nanoseconds of the longest duration: `2^64 - 1` seconds and a fraction. -/
def longest : Nat := 18446744073709551615 * 1000000000 + 999999999

/-- The empty duration. -/
def zero : Duration := ⟨0, by decide⟩

instance : Inhabited Duration := ⟨zero⟩

/-- The duration of `n` nanoseconds, when there is one. -/
def ofNanos? (n : Nat) : Option Duration :=
  if h : n ≤ longest then some ⟨n, h⟩ else none

/-- The duration of a 64-bit number of nanoseconds. -/
def ofNanos64 (n : UInt64) : Duration := ⟨n.toNat, by have := n.toNat_lt; omega⟩

/-- Sum of two durations, `none` when it exceeds the longest one. -/
def add? (a b : Duration) : Option Duration :=
  ofNanos? (a.nanos + b.nanos)

/-- Sum of a list of durations from the left, `none` as soon as a partial sum is out of range. -/
def sum? (ds : List Duration) : Option Duration :=
  ds.foldlM add? zero

/-- The duration in seconds: whole seconds plus the fraction, each rounded to a float. -/
def seconds (d : Duration) : Float :=
  Float.ofNat (d.nanos / 1000000000) + Float.ofNat (d.nanos % 1000000000) / 1e9

/-! ## Sums are exact -/

/-- Nanoseconds of a list of durations, without a bound. -/
def totalNanos : List Duration → Nat
  | [] => 0
  | d :: ds => d.nanos + totalNanos ds

/-- A 64-bit number of nanoseconds is a duration of as many. -/
@[simp]
theorem nanos_ofNanos64 (n : UInt64) : (ofNanos64 n).nanos = n.toNat := rfl

/-- There is a duration of `n` nanoseconds exactly when it is the given one. -/
theorem ofNanos?_eq_some_iff {n : Nat} {d : Duration} : ofNanos? n = some d ↔ d.nanos = n := by
  unfold ofNanos?
  split
  · rw [Option.some.injEq, Duration.ext_iff]
    exact eq_comm
  · next h =>
    refine Iff.intro (fun h' => nomatch h') fun h' => ?_
    exact absurd (h' ▸ d.le_longest) h

/-- There is no duration of more nanoseconds than the longest one has, and of any fewer there is
one. -/
theorem ofNanos?_eq_none_iff {n : Nat} : ofNanos? n = none ↔ longest < n := by
  unfold ofNanos?
  split <;> simp <;> omega

/-- A sum is the exact sum. -/
theorem add?_eq_some_iff {a b d : Duration} : a.add? b = some d ↔ d.nanos = a.nanos + b.nanos :=
  ofNanos?_eq_some_iff

/-- A sum is missing exactly when the exact one is out of range. -/
theorem add?_eq_none_iff {a b : Duration} : a.add? b = none ↔ longest < a.nanos + b.nanos :=
  ofNanos?_eq_none_iff

/-- A running sum is the exact sum, and it exists exactly when the exact sum is in range. -/
theorem foldlM_add?_eq_some_iff {ds : List Duration} {a d : Duration} :
    ds.foldlM add? a = some d ↔ d.nanos = a.nanos + totalNanos ds := by
  induction ds generalizing a with
  | nil => simp [Duration.ext_iff, totalNanos, eq_comm]
  | cons x ds ih =>
    rw [List.foldlM_cons]
    cases h : a.add? x with
    | none =>
      have big := add?_eq_none_iff.1 h
      -- the sum so far is out of range already, and sums only grow
      have small : d.nanos ≤ longest := d.le_longest
      simp only [Option.bind_eq_bind, Option.bind_none, totalNanos]
      constructor
      · intro h'; cases h'
      · intro h'; omega
    | some s =>
      have hs := add?_eq_some_iff.1 h
      simp only [Option.bind_eq_bind, Option.bind_some, totalNanos]
      rw [ih, hs, Nat.add_assoc]

/-- The sum of a list is its exact sum. -/
theorem sum?_eq_some_iff {ds : List Duration} {d : Duration} :
    sum? ds = some d ↔ d.nanos = totalNanos ds := by
  rw [sum?, foldlM_add?_eq_some_iff]
  simp [zero]

/-- A sum is missing exactly when the exact sum exceeds the longest duration. -/
theorem sum?_eq_none_iff {ds : List Duration} :
    sum? ds = none ↔ longest < totalNanos ds := by
  constructor
  · intro h
    refine Nat.lt_of_not_le fun le => ?_
    have : sum? ds = some ⟨_, le⟩ := sum?_eq_some_iff.2 rfl
    rw [h] at this
    cases this
  · intro h
    cases hs : sum? ds with
    | none => rfl
    | some s =>
      have small : s.nanos ≤ longest := s.le_longest
      have := sum?_eq_some_iff.1 hs
      omega

end Duration

end ScenarioResults
