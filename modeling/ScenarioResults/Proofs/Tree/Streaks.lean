import Mathlib.Data.List.TakeWhile
import ScenarioResults.Proofs.Tree.Tags
import ScenarioResults.Tree.History

/-!
# Streaks of failures

The streak of a scenario is the longest first part of its history in which it has a failed
counterpart in every run. Where its failures began, its status against the previous run and its age
are computed apart from each other; in a tallied tree all of them tell of this streak, and of no run
behind it (`Tree.streakTold_of_tally`).

## Shape of the proof

`counterpartFailed?` has three answers for a run: there is no counterpart, there is one that did not
fail, or there is one that failed. The streak goes on as long as the last answer is given, so it is
the longest first part with failures only (`isStreak_iff`). The status compares the answer for the
previous run with the scenario itself (`Status.compare`). Both turn on the previous run: it starts a
streak (`streak_ne_nil_iff`) exactly when the status is a plain failure and there is a counterpart
(`status?_eq_failed_iff`).
-/

namespace ScenarioResults

namespace Status

/-- A failure is a plain one unless the counterpart is known not to have failed. -/
theorem compare_eq_failed_iff {failed : Bool} {before : Option Bool} :
    compare failed before = .failed ↔ failed = true ∧ before ≠ some false := by
  cases failed <;> rcases before with _ | _ | _ <;> simp [compare]

/-- A failure is a regression when the counterpart did not fail. -/
theorem compare_eq_regression_iff {failed : Bool} {before : Option Bool} :
    compare failed before = .regression ↔ failed = true ∧ before = some false := by
  cases failed <;> rcases before with _ | _ | _ <;> simp [compare]

end Status

namespace Tree

variable {t u other : Tree} {id : ScenarioId} {run : ℕ} {history : List Run}

/-- The scenario is there and failed. -/
def Failed (t : Tree) (id : ScenarioId) : Prop := ∃ e, t.scenario? id = some e ∧ e.isFailed = true

/-- The scenario has a counterpart in the other tree, and that failed. -/
def FailedIn (t : Tree) (id : ScenarioId) (other : Tree) : Prop :=
  ∃ c, (t.counterpart? id other).1 = some c ∧ other.Failed c

/-- The runs are the longest first part of the history in which the scenario has a failed
counterpart in every run. -/
structure IsStreak (t : Tree) (id : ScenarioId) (history runs : List Run) : Prop where
  leading : runs <+: history
  failed : ∀ run ∈ runs, t.FailedIn id run.tree
  longest : ∀ more, more <+: history → (∀ run ∈ more, t.FailedIn id run.tree) → more <+: runs

/-! ## Counterparts -/

/-- A name leads to a scenario that is there. -/
theorem isSome_scenario?_of_scenarioByName? {feature scenario : String}
    (h : t.scenarioByName? feature scenario = some id) : (t.scenario? id).isSome := by
  obtain ⟨i, -, h⟩ := Option.bind_eq_some_iff.mp h
  obtain ⟨f, hf, h⟩ := Option.bind_eq_some_iff.mp h
  obtain ⟨j, -, h⟩ := Option.bind_eq_some_iff.mp h
  obtain ⟨e, he, h⟩ := Option.bind_eq_some_iff.mp h
  obtain rfl := Option.some.inj h
  rw [scenario?, hf, Option.bind_some, he]
  rfl

/-- A counterpart is a scenario that is there. -/
theorem isSome_scenario?_of_counterpart {c : ScenarioId}
    (h : (t.counterpart? id other).1 = some c) : (other.scenario? c).isSome := by
  obtain ⟨feature, -, h⟩ := Option.bind_eq_some_iff.mp h
  obtain ⟨scenario, -, h⟩ := Option.bind_eq_some_iff.mp h
  exact isSome_scenario?_of_scenarioByName? h

/-- Whether the counterpart failed is known where there is one. -/
theorem counterpartFailed?_eq_some_iff {b : Bool} : t.counterpartFailed? id other = some b ↔
    ∃ c e, (t.counterpart? id other).1 = some c ∧ other.scenario? c = some e ∧ e.isFailed = b := by
  constructor
  · intro h
    obtain ⟨e, he, hb⟩ := Option.map_eq_some_iff.mp h
    obtain ⟨c, hc, he⟩ := Option.bind_eq_some_iff.mp he
    exact ⟨c, e, hc, he, hb⟩
  · rintro ⟨c, e, hc, he, hb⟩
    exact Option.map_eq_some_iff.mpr ⟨e, Option.bind_eq_some_iff.mpr ⟨c, hc, he⟩, hb⟩

/-- That the counterpart failed is one answer of three. -/
theorem failedIn_iff : t.FailedIn id other ↔ t.counterpartFailed? id other = some true := by
  rw [counterpartFailed?_eq_some_iff]
  constructor
  · rintro ⟨c, hc, e, he, hfailed⟩
    exact ⟨c, e, hc, he, hfailed⟩
  · rintro ⟨c, e, hc, he, hfailed⟩
    exact ⟨c, hc, e, he, hfailed⟩

instance : Decidable (t.Failed id) :=
  decidable_of_iff ((t.scenario? id).any ScenarioEntry.isFailed = true) (Option.any_eq_true _ _)

instance : Decidable (t.FailedIn id other) :=
  decidable_of_iff (t.counterpartFailed? id other = some true) failedIn_iff.symm

/-- That there is no counterpart is another: one that is found is always there. -/
theorem counterpartFailed?_eq_none_iff :
    t.counterpartFailed? id other = none ↔ (t.counterpart? id other).1 = none := by
  constructor
  · intro h
    by_contra hsome
    obtain ⟨c, hc⟩ := Option.ne_none_iff_exists'.mp hsome
    obtain ⟨e, he⟩ := Option.isSome_iff_exists.mp (isSome_scenario?_of_counterpart hc)
    rw [counterpartFailed?_eq_some_iff.mpr ⟨c, e, hc, he, rfl⟩] at h
    cases h
  · intro h
    apply Option.eq_none_iff_forall_ne_some.mpr
    intro b hb
    obtain ⟨c, -, hc, -⟩ := counterpartFailed?_eq_some_iff.mp hb
    rw [h] at hc
    cases hc

/-! ## The streak -/

/-- A run lengthens the streak when the counterpart failed in it, and ends it otherwise. -/
theorem streak_cons (r : Run) : t.streak id (r :: history) =
    if t.counterpartFailed? id r.tree = some true then r :: t.streak id history else [] := by
  simp [streak, List.takeWhile_cons]

/-- The computed streak is the longest first part with failures only. -/
theorem isStreak_streak (t : Tree) (id : ScenarioId) (history : List Run) :
    t.IsStreak id history (t.streak id history) where
  leading := List.takeWhile_prefix _
  failed r hr := by
    unfold streak at hr
    have hpass := List.mem_takeWhile_imp hr
    exact failedIn_iff.mpr (beq_iff_eq.mp hpass)
  longest more := by
    rintro ⟨rest, rfl⟩ hmore
    have hpass : ∀ r ∈ more, (t.counterpartFailed? id r.tree == some true) = true := fun r hr =>
      beq_iff_eq.mpr (failedIn_iff.mp (hmore r hr))
    rw [streak, List.takeWhile_append_of_pos hpass]
    exact List.prefix_append more _

/-- There is one streak. -/
theorem isStreak_iff {runs : List Run} :
    t.IsStreak id history runs ↔ runs = t.streak id history := by
  constructor
  · intro h
    have hstreak := t.isStreak_streak id history
    have hle := hstreak.longest runs h.leading h.failed
    have hge := h.longest _ hstreak.leading hstreak.failed
    exact hle.eq_of_length_le hge.length_le
  · rintro rfl
    exact t.isStreak_streak id history

/-- The previous run decides whether there is a streak at all. -/
theorem streak_ne_nil_iff {r : Run} : t.streak id (r :: history) ≠ [] ↔ t.FailedIn id r.tree := by
  rw [streak_cons, failedIn_iff]
  split <;> simp [*]

/-- Behind a run without a failed counterpart nothing counts. -/
theorem streak_of_not_failedIn {cut : Run} (h : ¬ t.FailedIn id cut.tree) (newer older : List Run) :
    t.streak id (newer ++ cut :: older) = t.streak id newer := by
  induction newer with
  | nil =>
      rw [failedIn_iff] at h
      rw [List.nil_append, streak_cons, if_neg h]
      rfl
  | cons r newer ih => rw [List.cons_append, streak_cons, streak_cons, ih]

/-! ## Since when a scenario fails, and for how long -/

/-- The streak of a failed scenario began in its last run, or in the current one. -/
theorem failedSince?_of_failed (h : t.Failed id) (run : ℕ) (history : List Run) :
    (t.failedSince? id run history).1 =
      some (((t.streak id history).getLast?.map Run.number).getD run) := by
  obtain ⟨e, he, hfailed⟩ := h
  simp [failedSince?, he, hfailed]

/-- A scenario that did not fail is in no streak. -/
theorem failedSince?_of_not_failed (h : ¬ t.Failed id) (run : ℕ) (history : List Run) :
    (t.failedSince? id run history).1 = none := by
  unfold failedSince?
  split
  · rfl
  · next e he =>
    have hfailed : ¬ e.isFailed = true := fun hfailed => h ⟨e, he, hfailed⟩
    rw [if_neg hfailed]

/-- There is no run of origin exactly when the scenario did not fail. -/
theorem failedSince?_eq_none_iff :
    (t.failedSince? id run history).1 = none ↔ ¬ t.Failed id := by
  constructor
  · intro hnone hfailed
    rw [failedSince?_of_failed hfailed] at hnone
    cases hnone
  · exact fun h => failedSince?_of_not_failed h run history

/-- The age counts from the run in which the failures began. -/
theorem age_eq (t : Tree) (id : ScenarioId) (run : ℕ) (history : List Run) :
    (t.age id run history).1 =
      (t.failedSince? id run history).1.elim 0 fun since => min (run - since + 1) longestAge := by
  unfold age
  split <;> next h => rw [h]; rfl

/-! ## Status -/

/-- In a tallied tree no scenario that failed skipped. -/
theorem skipped_of_failed (h : u.tally = .done t) {e : ScenarioEntry}
    (he : t.scenario? id = some e) (hfailed : e.isFailed = true) :
    e.standing.flags.skipped = false := by
  have hstands : e.Stands := stands_of_tally h (x := (id, e)) (mem_scenarios_iff.mpr he)
  have hexclusive := rollup_exclusive (e.content.verdicts.map Verdict.outcome)
  rw [← hstands.flags] at hexclusive
  have hflag : e.standing.flags.failed = true := hfailed
  rwa [hflag, Bool.true_and] at hexclusive

/-- A scenario that failed is compared with the previous run. -/
theorem status?_of_failed (h : u.tally = .done t) (hfailed : t.Failed id) (other : Tree) :
    (t.status? id (some other)).1 =
      some (Status.compare true (t.counterpartFailed? id other)) := by
  obtain ⟨e, he, hfailed⟩ := hfailed
  simp [status?, he, hfailed, skipped_of_failed h he hfailed]

/-- Against a previous run a regression is a failure where the counterpart did not fail. -/
theorem status?_eq_regression (h : (t.status? id (some other)).1 = some .regression) :
    t.Failed id ∧ t.counterpartFailed? id other = some false := by
  unfold status? at h
  split at h
  · cases h
  · next e he =>
    split at h
    · cases h
    · obtain ⟨hfailed, hbefore⟩ := Status.compare_eq_regression_iff.mp (Option.some.inj h)
      exact ⟨⟨e, he, hfailed⟩, hbefore⟩

/-- A failure that is no regression and has a counterpart is one whose counterpart failed. -/
theorem status?_eq_failed_iff (h : u.tally = .done t) (hfailed : t.Failed id) :
    ((t.status? id (some other)).1 = some .failed ∧ (t.counterpart? id other).1.isSome) ↔
      t.FailedIn id other := by
  have hcounterpart :
      (t.counterpart? id other).1.isSome ↔ t.counterpartFailed? id other ≠ none := by
    rw [Option.isSome_iff_ne_none, ne_eq, ne_eq, counterpartFailed?_eq_none_iff]
  rw [status?_of_failed h hfailed, Option.some.injEq, Status.compare_eq_failed_iff, failedIn_iff,
    hcounterpart]
  rcases t.counterpartFailed? id other with _ | _ | _ <;> simp

/-! ## What they tell -/

/-- The run in which the failures of a scenario began, its status against the previous run and its
age tell of one streak. They began at no time exactly when the scenario did not fail or is not
there, else in the last run of the streak, or in the current run when the streak is empty. The
streak is not empty exactly when the status against the previous run is a plain failure and there is
a counterpart. A regression began in the current run and is one run old. Behind a run in which the
counterpart is missing or did not fail, any runs may follow. -/
structure StreakTold (t : Tree) (id : ScenarioId) (run : ℕ) (history : List Run) : Prop where
  never : (t.failedSince? id run history).1 = none ↔ ¬ t.Failed id
  since : t.Failed id → ∃ runs, t.IsStreak id history runs ∧
    (t.failedSince? id run history).1 = some ((runs.getLast?.map Run.number).getD run)
  status : t.Failed id → ∀ previous older runs, history = previous :: older →
    t.IsStreak id history runs →
      (runs ≠ [] ↔ (t.status? id (some previous.tree)).1 = some .failed ∧
        (t.counterpart? id previous.tree).1.isSome)
  regression : ∀ previous older, history = previous :: older →
    (t.status? id (some previous.tree)).1 = some .regression →
      (t.failedSince? id run history).1 = some run ∧ (t.age id run history).1 = 1
  behind : ∀ newer cut older older', history = newer ++ cut :: older →
    ¬ t.FailedIn id cut.tree →
      (t.failedSince? id run (newer ++ cut :: older')).1 = (t.failedSince? id run history).1 ∧
        (t.age id run (newer ++ cut :: older')).1 = (t.age id run history).1 ∧
        (t.status? id ((newer ++ cut :: older').head?.map Run.tree)).1 =
          (t.status? id (history.head?.map Run.tree)).1

/-- A regression has no streak. -/
theorem failedSince?_of_regression {previous : Run}
    (h : (t.status? id (some previous.tree)).1 = some .regression) (run : ℕ) (older : List Run) :
    (t.failedSince? id run (previous :: older)).1 = some run := by
  obtain ⟨hfailed, hbefore⟩ := status?_eq_regression h
  have hstreak : t.streak id (previous :: older) = [] := by
    rw [streak_cons, hbefore]
    rfl
  rw [failedSince?_of_failed hfailed, hstreak]
  rfl

/-- The runs behind one without a failed counterpart do not matter. -/
theorem failedSince?_of_not_failedIn {cut : Run} (h : ¬ t.FailedIn id cut.tree) (run : ℕ)
    (newer older older' : List Run) :
    (t.failedSince? id run (newer ++ cut :: older)).1 =
      (t.failedSince? id run (newer ++ cut :: older')).1 := by
  by_cases hfailed : t.Failed id
  · rw [failedSince?_of_failed hfailed, failedSince?_of_failed hfailed,
      streak_of_not_failedIn h, streak_of_not_failedIn h]
  · rw [failedSince?_of_not_failed hfailed, failedSince?_of_not_failed hfailed]

/-- In a tallied tree, whatever the run number and the history, all that is asked about the failures
of a scenario tells of its streak. -/
theorem streakTold_of_tally (h : u.tally = .done t) (id : ScenarioId) (run : ℕ)
    (history : List Run) : t.StreakTold id run history where
  never := failedSince?_eq_none_iff
  since hfailed := ⟨_, t.isStreak_streak id history, failedSince?_of_failed hfailed run history⟩
  status := by
    rintro hfailed previous older runs rfl hruns
    rw [isStreak_iff.mp hruns, streak_ne_nil_iff, status?_eq_failed_iff h hfailed]
  regression := by
    rintro previous older rfl hstatus
    have hsince := failedSince?_of_regression hstatus run older
    refine ⟨hsince, ?_⟩
    rw [age_eq, hsince, Option.elim_some, Nat.sub_self]
    rfl
  behind := by
    rintro newer cut older older' rfl hcut
    -- the search stops at the run that did not fail, so what lies behind it is not read
    have hsince := failedSince?_of_not_failedIn hcut run newer older' older
    refine ⟨hsince, by rw [age_eq, age_eq, hsince], ?_⟩
    cases newer <;> rfl

/-- A scenario fails for the third time, and once again after it had passed. -/
theorem streakTold_of_tally_third :
    let tree := fun outcome : Outcome => ((Builder.new {} ({} : Shelf)).processAll
      [.feature { name := "f" }, .scenario { name := "s" }, .step {},
        .result { outcome }]).builder.tree.tally.value
    let t := tree .failed
    let passed : Run := ⟨6, tree .passed⟩
    let history : List Run := [⟨9, t⟩, ⟨7, tree .undefined⟩, passed, ⟨5, t⟩]
    t.tally = .done t ∧ t.StreakTold ⟨0, 0⟩ 10 history ∧
      (t.failedSince? ⟨0, 0⟩ 10 history).1 = some 7 ∧ (t.age ⟨0, 0⟩ 10 [passed, ⟨5, t⟩]).1 = 1 := by
  intro tree t passed history
  have hdone : t.tally = .done t := by decide +kernel
  have hregression : (t.status? ⟨0, 0⟩ (some passed.tree)).1 = some .regression := by
    decide +kernel
  have htold := streakTold_of_tally hdone ⟨0, 0⟩ 10
  exact ⟨hdone, htold history, by decide +kernel,
    ((htold [passed, ⟨5, t⟩]).regression _ _ rfl hregression).2⟩

end Tree

end ScenarioResults
