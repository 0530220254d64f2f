import Mathlib.Data.List.Chain
import ScenarioResults.Proofs.Tree.Streaks

/-!
# The age of a failure

The age of a failure is the distance between two run numbers and not a number of runs. It therefore
counts the runs of the streak, the current run and, on top, each run number that the streak leaves
out: `Tree.age_of_descending`. Where numbers are left out it is not the number of consecutive
failures (`Tree.left_out_number_counted`).
-/

namespace ScenarioResults

/-- The history is listed newest first: its numbers fall strictly from that of the current run on. -/
def Descending (run : ℕ) (history : List Run) : Prop :=
  (run :: history.map Run.number).IsChain (· > ·)

/-- How many numbers are left out on the way down from the current run through the runs. -/
def leftOut (run : ℕ) : List Run → ℕ
  | [] => 0
  | r :: runs => (run - r.number - 1) + leftOut r.number runs

section Numbers

variable {run : ℕ} {r : Run} {runs history : List Run}

/-- The first run comes before the current one, and the others go down from there. -/
theorem descending_cons :
    Descending run (r :: runs) ↔ r.number < run ∧ Descending r.number runs :=
  List.isChain_cons_cons

/-- The first runs of a history are listed newest first, too. -/
theorem Descending.of_leading (h : Descending run history) (hruns : runs <+: history) :
    Descending run runs := by
  obtain ⟨rest, rfl⟩ := hruns
  rw [Descending, List.map_append, ← List.cons_append] at h
  exact h.left_of_append

/-- The way down to the last run is made of runs and of numbers left out. -/
theorem last_add_length_add_leftOut (h : Descending run runs) :
    (runs.getLast?.map Run.number).getD run + runs.length + leftOut run runs = run := by
  induction runs generalizing run with
  | nil => rfl
  | cons r runs ih =>
      obtain ⟨hlt, hrest⟩ := descending_cons.mp h
      have hlast : ((r :: runs).getLast?.map Run.number).getD run =
          (runs.getLast?.map Run.number).getD r.number := by
        rw [List.getLast?_cons]
        cases runs.getLast? <;> rfl
      have hdown := ih hrest
      rw [hlast, List.length_cons, leftOut]
      omega

/-- No number is left out exactly when the runs bear the numbers right below the current one. -/
theorem leftOut_eq_zero_iff (h : Descending run runs) :
    leftOut run runs = 0 ↔ ∀ k r, runs[k]? = some r → r.number + k + 1 = run := by
  induction runs generalizing run with
  | nil => simp [leftOut]
  | cons r runs ih =>
      obtain ⟨hlt, hrest⟩ := descending_cons.mp h
      rw [leftOut, Nat.add_eq_zero_iff, ih hrest]
      constructor
      · rintro ⟨hfirst, hbelow⟩ k r' hr'
        cases k with
        | zero =>
            obtain rfl := Option.some.inj hr'
            omega
        | succ k =>
            have hk := hbelow k r' hr'
            omega
      · intro hall
        have hfirst : r.number + 0 + 1 = run := hall 0 r rfl
        refine ⟨by omega, fun k r' hr' => ?_⟩
        have hk := hall (k + 1) r' hr'
        omega

end Numbers

namespace Tree

variable {t : Tree} {id : ScenarioId} {run : ℕ} {history : List Run}

/-- With the history listed newest first, a scenario that did not fail has age 0. The age of one that
failed is the number of its failures in a row, the current one included, and of the run numbers left
out among them, as far as it can be counted. So it is the number of failures alone exactly when the
runs of the streak bear the numbers right below the current one. -/
theorem age_of_descending (h : Descending run history) (id : ScenarioId) :
    (¬ t.Failed id → (t.age id run history).1 = 0) ∧
      (t.Failed id → ∃ runs, t.IsStreak id history runs ∧
        (t.age id run history).1 = min (runs.length + 1 + leftOut run runs) longestAge ∧
        (run < longestAge → ((t.age id run history).1 = runs.length + 1 ↔
          ∀ k r, runs[k]? = some r → r.number + k + 1 = run))) := by
  constructor
  · intro hpassed
    rw [age_eq, failedSince?_of_not_failed hpassed]
    rfl
  · intro hfailed
    have hstreak := t.isStreak_streak id history
    have hdescending := h.of_leading hstreak.leading
    have hdown := last_add_length_add_leftOut hdescending
    have hage : (t.age id run history).1 =
        min ((t.streak id history).length + 1 + leftOut run (t.streak id history)) longestAge := by
      rw [age_eq, failedSince?_of_failed hfailed, Option.elim_some]
      congr 1
      omega
    refine ⟨t.streak id history, hstreak, hage, fun hrun => ?_⟩
    -- the current run has a number below the largest age, so nothing is cut off
    rw [hage, ← leftOut_eq_zero_iff hdescending]
    omega

/-- The number 4 is left out among three failures, so the last of them has age 4. -/
theorem age_of_descending_left_out :
    let t := ((Builder.new {} ({} : Shelf)).processAll
      [.feature { name := "f" }, .scenario { name := "s" }, .step {},
        .result { outcome := .failed }]).builder.tree.tally.value
    let history : List Run := [⟨3, t⟩, ⟨2, t⟩]
    Descending 5 history ∧ t.Failed ⟨0, 0⟩ ∧ t.IsStreak ⟨0, 0⟩ history history ∧
      (t.age ⟨0, 0⟩ 5 history).1 = 4 := by
  intro t history
  have hdescending : Descending 5 history := by
    show [5, 3, 2].IsChain (· > ·)
    decide
  have hfailed : t.Failed ⟨0, 0⟩ := by decide +kernel
  have hall : t.IsStreak ⟨0, 0⟩ history history :=
    ⟨List.prefix_rfl, by decide +kernel, fun _ hmore _ => hmore⟩
  obtain ⟨-, hage⟩ := age_of_descending hdescending ⟨0, 0⟩
  obtain ⟨runs, hruns, hage, -⟩ := hage hfailed
  obtain rfl : runs = history := (isStreak_iff.mp hruns).trans (isStreak_iff.mp hall).symm
  exact ⟨hdescending, hfailed, hall, hage.trans (by decide)⟩

/-- Two failures in a row do not always make the later one two runs old: in the runs 3 and 5 it has
age 3. -/
theorem left_out_number_counted : ¬ ∀ (t : Tree) (id : ScenarioId) (run : ℕ) (history : List Run),
    t.Settled → (∀ r ∈ history, r.tree.Settled) → Descending run history → t.Failed id →
      ∀ runs, t.IsStreak id history runs → (t.age id run history).1 = 1 + runs.length := by
  intro hall
  let t := ((Builder.new {} ({} : Shelf)).processAll
    [.feature { name := "f" }, .scenario { name := "s" }, .step {},
      .result { outcome := .failed }]).builder.tree.tally.value
  have ht : t.Settled := .tally ((reachable_new {} ({} : Shelf)).processAll _) (by decide +kernel)
  -- run 4 is missing from the history, and it is counted all the same
  have hdescending : Descending 5 [⟨3, t⟩] := by
    show [5, 3].IsChain (· > ·)
    decide
  have hfailed : t.Failed ⟨0, 0⟩ := by decide +kernel
  have hstreak : t.IsStreak ⟨0, 0⟩ [⟨3, t⟩] [⟨3, t⟩] :=
    ⟨List.prefix_rfl, by decide +kernel, fun _ hmore _ => hmore⟩
  have hhistory : ∀ r ∈ [(⟨3, t⟩ : Run)], r.tree.Settled := by
    intro r hr
    rw [List.mem_singleton.mp hr]
    exact ht
  have hage := hall t ⟨0, 0⟩ 5 [⟨3, t⟩] ht hhistory hdescending hfailed _ hstreak
  revert hage
  decide +kernel

end Tree

end ScenarioResults
