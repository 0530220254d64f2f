import Mathlib.Algebra.BigOperators.Group.List.Basic
import Mathlib.Algebra.GroupWithZero.Nat
import Mathlib.Data.List.Induction
import Mathlib.Tactic.Common
import ScenarioResults.Counts

/-!
# Sums of counters

`Counts.IsSum` says that counters are the exact component-wise sum of a list of counters. It holds
of what `Counts.sum?` and `Counts.add?` give, and it takes the list apart as lists are taken apart,
so sums of sums are sums.
-/

namespace ScenarioResults

/-- What holds of a fold in `Option` at the start and is kept by each step, with what the fold has
seen so far in view, holds at the end. -/
theorem foldlM_of_prefix {α β : Type} {P : List α → β → Prop} {f : β → α → Option β} {as : List α}
    (hstep : ∀ done a b b', done ++ [a] <+: as → P done b → f b a = some b' → P (done ++ [a]) b')
    {b b' : β} (hb : P [] b) (h : as.foldlM f b = some b') : P as b' := by
  -- the induction is on what is left to fold, with what is done given up front
  have hfold : ∀ (rest done : List α) (b : β), done ++ rest = as → P done b →
      rest.foldlM f b = some b' → P as b' := by
    intro rest
    induction rest with
    | nil =>
        intro done b hdone hb h
        obtain rfl := Option.some.inj h
        obtain rfl : done = as := by simpa using hdone
        exact hb
    | cons a rest ih =>
        intro done b hdone hb h
        obtain ⟨b₁, hfirst, hrest⟩ := Option.bind_eq_some_iff.mp h
        have hdone' : (done ++ [a]) ++ rest = as := by simpa using hdone
        exact ih (done ++ [a]) b₁ hdone' (hstep done a b b₁ ⟨rest, hdone'⟩ hb hfirst) hrest
  exact hfold as [] b rfl hb h

/-- A fold in `Option` completes when each step does behind what the fold has completed so far. -/
theorem isSome_foldlM_of_prefix {α β : Type} {f : β → α → Option β} {as : List α} {b : β}
    (hstep : ∀ done a b', done ++ [a] <+: as → done.foldlM f b = some b' → (f b' a).isSome) :
    (as.foldlM f b).isSome := by
  induction as using List.reverseRecOn with
  | nil => rfl
  | append_singleton as a ih =>
      have hsome := ih fun done a' b' hinit =>
        hstep done a' b' (hinit.trans (List.prefix_append as [a]))
      obtain ⟨b', hb'⟩ := Option.isSome_iff_exists.mp hsome
      obtain ⟨b'', hb''⟩ := Option.isSome_iff_exists.mp (hstep as a b' List.prefix_rfl hb')
      simp [List.foldlM_append, hb', hb'']

namespace Duration

/-- The total of durations is the sum of their nanoseconds. -/
theorem totalNanos_eq_sum (ds : List Duration) :
    totalNanos ds = (ds.map Duration.nanos).sum := by
  induction ds with
  | nil => rfl
  | cons d ds ih => simp [totalNanos, ih]

/-- The total of two lists is that of the first plus that of the second. -/
theorem totalNanos_append (as bs : List Duration) :
    totalNanos (as ++ bs) = totalNanos as + totalNanos bs := by
  simp [totalNanos_eq_sum]

/-- The order of durations does not matter. -/
theorem totalNanos_perm {as bs : List Duration} (h : as.Perm bs) : totalNanos as = totalNanos bs := by
  rw [totalNanos_eq_sum, totalNanos_eq_sum]
  exact (h.map nanos).sum_eq

/-- The total of lists put together is the sum of their totals. -/
theorem totalNanos_flatMap {α : Type} (f : α → List Duration) (xs : List α) :
    totalNanos (xs.flatMap f) = (xs.map fun x => totalNanos (f x)).sum := by
  induction xs with
  | nil => rfl
  | cons x xs ih => simp [totalNanos_append, ih]

/-- Where each time is the total of its parts, the times total what all the parts do. -/
theorem totalNanos_map {α : Type} {time : α → Duration} {parts : α → List Duration} {xs : List α}
    (h : ∀ x ∈ xs, (time x).nanos = totalNanos (parts x)) :
    totalNanos (xs.map time) = totalNanos (xs.flatMap parts) := by
  rw [totalNanos_flatMap, totalNanos_eq_sum, List.map_map]
  exact congrArg List.sum (List.map_congr_left h)

/-- Fewer durations have no greater total. -/
theorem totalNanos_le_of_sublist {as bs : List Duration} (h : as.Sublist bs) :
    totalNanos as ≤ totalNanos bs := by
  induction h with
  | slnil => exact Nat.le_refl _
  | cons d _ ih => exact Nat.le_add_left_of_le ih
  | cons_cons d _ ih => exact Nat.add_le_add_left ih d.nanos

/-- A part is never longer than the whole. -/
theorem totalNanos_le_flatMap {α : Type} (f : α → List Duration) {x : α} {xs : List α}
    (hx : x ∈ xs) : totalNanos (f x) ≤ totalNanos (xs.flatMap f) := by
  rw [List.flatMap_def]
  exact totalNanos_le_of_sublist (List.sublist_flatten_of_mem (List.mem_map_of_mem hx))

/-- No duration is longer than the longest one. -/
theorem nanos_le_longest (d : Duration) : d.nanos ≤ longest := d.le_longest

/-- Durations can be added up exactly when their total is in range. -/
theorem isSome_sum?_iff {ds : List Duration} : (sum? ds).isSome ↔ totalNanos ds ≤ longest := by
  rw [← not_iff_not, Option.not_isSome_iff_eq_none, sum?_eq_none_iff, Nat.not_le]

/-- No selection from a list that fits, in whatever order, is out of range. -/
theorem isSome_sum?_of_subperm {part all : List Duration} (hpart : part.Subperm all)
    (h : totalNanos all ≤ longest) : (sum? part).isSome := by
  obtain ⟨part', hperm, hsub⟩ := hpart
  rw [isSome_sum?_iff, totalNanos_eq_sum, ← (hperm.map nanos).sum_eq, ← totalNanos_eq_sum]
  exact Nat.le_trans (totalNanos_le_of_sublist hsub) h

/-- Two durations can be added exactly when their sum is in range. -/
theorem isSome_add?_iff {a b : Duration} : (a.add? b).isSome ↔ a.nanos + b.nanos ≤ longest := by
  rw [← not_iff_not, Option.not_isSome_iff_eq_none, add?_eq_none_iff, Nat.not_le]

end Duration

namespace Counts

/-- The counters are the sum of the list, component by component. -/
structure IsSum (c : Counts) (cs : List Counts) : Prop where
  pass : c.pass = (cs.map Counts.pass).sum
  fail : c.fail = (cs.map Counts.fail).sum
  skip : c.skip = (cs.map Counts.skip).sum
  duration : c.duration.nanos = Duration.totalNanos (cs.map Counts.duration)

variable {a b c : Counts} {as bs cs : List Counts}

theorem isSum_nil : zero.IsSum [] := ⟨rfl, rfl, rfl, rfl⟩

/-- The sum of one counter is this counter. -/
theorem isSum_singleton (c : Counts) : c.IsSum [c] := by
  constructor <;> simp [Duration.totalNanos]

/-- Sums of two lists add up to the sum of both. -/
theorem IsSum.append (ha : a.IsSum as) (hb : b.IsSum bs) (h : a.add? b = some c) :
    c.IsSum (as ++ bs) := by
  obtain ⟨duration, hduration, rfl⟩ := Option.map_eq_some_iff.mp h
  rw [Duration.add?_eq_some_iff] at hduration
  constructor
  · simp [ha.pass, hb.pass]
  · simp [ha.fail, hb.fail]
  · simp [ha.skip, hb.skip]
  · simp [hduration, ha.duration, hb.duration, Duration.totalNanos_eq_sum]

/-- What a running sum gives is the sum. -/
theorem isSum_of_sum? (h : sum? cs = some c) : c.IsSum cs := by
  refine foldlM_of_prefix (P := fun seen c => c.IsSum seen)
    (fun seen x a b _ ha hb => ?_) isSum_nil h
  exact ha.append (isSum_singleton x) hb

/-- The duration of a running sum is the running sum of the durations. -/
theorem map_duration_foldlM_add? (cs : List Counts) (c : Counts) :
    (cs.foldlM add? c).map Counts.duration =
      (cs.map Counts.duration).foldlM Duration.add? c.duration := by
  induction cs generalizing c with
  | nil => rfl
  | cons x cs ih =>
      rw [List.map_cons, List.foldlM_cons, List.foldlM_cons, add?]
      cases c.duration.add? x.duration with
      | none => rfl
      | some duration => exact ih _

/-- A sum is missing only where the sum of the durations is out of range. -/
theorem isSome_sum?_iff : (sum? cs).isSome ↔
    Duration.totalNanos (cs.map Counts.duration) ≤ Duration.longest := by
  have hduration : (sum? cs).map Counts.duration = Duration.sum? (cs.map Counts.duration) :=
    map_duration_foldlM_add? cs zero
  rw [← Duration.isSome_sum?_iff, ← hduration, Option.isSome_map]

/-- A list has one sum. -/
theorem IsSum.unique (ha : a.IsSum cs) (hb : b.IsSum cs) : a = b :=
  Counts.ext (ha.pass.trans hb.pass.symm) (ha.fail.trans hb.fail.symm) (ha.skip.trans hb.skip.symm)
    (Duration.ext (ha.duration.trans hb.duration.symm))

/-- The order of a sum does not matter. -/
theorem IsSum.perm (h : c.IsSum as) (hperm : as.Perm bs) : c.IsSum bs where
  pass := h.pass.trans (hperm.map _).sum_eq
  fail := h.fail.trans (hperm.map _).sum_eq
  skip := h.skip.trans (hperm.map _).sum_eq
  duration := by
    rw [h.duration, Duration.totalNanos_eq_sum, Duration.totalNanos_eq_sum]
    exact ((hperm.map _).map _).sum_eq

/-- The sum of two lists, if there is one, is what their sums add up to. -/
theorem IsSum.add?_eq (ha : a.IsSum as) (hb : b.IsSum bs) (hc : c.IsSum (as ++ bs)) :
    a.add? b = some c := by
  have hnanos : c.duration.nanos = a.duration.nanos + b.duration.nanos := by
    rw [hc.duration, ha.duration, hb.duration, List.map_append, Duration.totalNanos_append]
  have hduration : a.duration.add? b.duration = some c.duration :=
    Duration.add?_eq_some_iff.mpr hnanos
  rw [add?, hduration, Option.map_some, Option.some.injEq]
  ext
  · simp [ha.pass, hb.pass, hc.pass]
  · simp [ha.fail, hb.fail, hc.fail]
  · simp [ha.skip, hb.skip, hc.skip]
  · rfl

/-- A figure that is the sum of its parts for each of many is so for all of them together. -/
theorem sum_map_eq_sum_flatMap {α β : Type} {figure : α → ℕ} {part : β → ℕ} {parts : α → List β}
    {xs : List α} (h : ∀ x ∈ xs, figure x = ((parts x).map part).sum) :
    (xs.map figure).sum = ((xs.flatMap parts).map part).sum := by
  induction xs with
  | nil => rfl
  | cons x xs ih =>
      rw [List.map_cons, List.sum_cons, List.flatMap_cons, List.map_append, List.sum_append,
        h x List.mem_cons_self, ih fun y hy => h y (List.mem_cons_of_mem _ hy)]

/-- A sum of sums is the sum of all that they add up. -/
theorem IsSum.flatMap {α : Type} {counts : α → Counts} {parts : α → List Counts} {xs : List α}
    (hparts : ∀ x ∈ xs, (counts x).IsSum (parts x)) (h : c.IsSum (xs.map counts)) :
    c.IsSum (xs.flatMap parts) := by
  -- one argument for the three counters and for the duration in nanoseconds
  have hsum : ∀ f : Counts → ℕ, (∀ x ∈ xs, f (counts x) = ((parts x).map f).sum) →
      ((xs.map counts).map f).sum = ((xs.flatMap parts).map f).sum := by
    intro f hf
    rw [List.map_map]
    exact sum_map_eq_sum_flatMap hf
  refine
    { pass := h.pass.trans (hsum _ fun x hx => (hparts x hx).pass)
      fail := h.fail.trans (hsum _ fun x hx => (hparts x hx).fail)
      skip := h.skip.trans (hsum _ fun x hx => (hparts x hx).skip)
      duration := h.duration.trans ?_ }
  have hnanos := hsum (fun c => c.duration.nanos) fun x hx => by
    simpa [Duration.totalNanos_eq_sum, Function.comp_def] using (hparts x hx).duration
  simpa [Duration.totalNanos_eq_sum, Function.comp_def] using hnanos

/-- The units in a sum of counters are the units of all of them. -/
theorem IsSum.total (h : c.IsSum cs) : c.total = (cs.map Counts.total).sum := by
  rw [Counts.total, h.pass, h.fail, h.skip]
  clear h
  induction cs with
  | nil => rfl
  | cons x cs ih =>
      simp only [List.map_cons, List.sum_cons, ← ih, Counts.total]
      omega

/-- A sum over units counts them. -/
theorem IsSum.total_eq_length (h : c.IsSum cs) (hunits : ∀ x ∈ cs, x.total = 1) :
    c.total = cs.length := by
  rw [h.total, List.map_congr_left hunits]
  simp

end Counts

end ScenarioResults
