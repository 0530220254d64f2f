import ScenarioResults.Proofs.Counts
import ScenarioResults.Proofs.Tree.Tally

/-!
# How a tallied scenario stands

A tally of a scenario rolls up its hooks, the outcome of its background as a whole and its steps.
The background was rolled up before, so in the end the scenario stands as all its verdicts together
say, whatever it held before the tally: `ScenarioEntry.stands_of_tally`.
-/

namespace ScenarioResults

/-- The whole fails when some outcome is a failure. -/
theorem rollup_failed (outcomes : List Outcome) :
    (rollup outcomes).failed = outcomes.any Outcome.isFailure := rfl

/-- The whole skips when some outcome is a skip and none a failure. -/
theorem rollup_skipped (outcomes : List Outcome) :
    (rollup outcomes).skipped =
      (outcomes.any Outcome.isSkip && !outcomes.any Outcome.isFailure) := rfl

namespace Standing

/-- A standing is renewed when the time is in range. -/
theorem refresh_eq_done_iff {s s' : Standing} {outcomes : List Outcome} {time : Option Duration} :
    s.refresh outcomes time = .done s' ↔
      ∃ duration, time = some duration ∧ { flags := rollup outcomes, duration } = s' := by
  unfold refresh
  rw [Attempt.require_eq_done_iff]
  simp

/-- A group that is rolled up counts as all its outcomes. -/
theorem rollup_outcome {s : Standing} {group : List Outcome} (h : s.flags = rollup group)
    (before after : List Outcome) :
    rollup (before ++ [s.outcome] ++ after) = rollup (before ++ group ++ after) := by
  have hfailed := congrArg Flags.failed h
  have hskipped := congrArg Flags.skipped h
  rw [rollup_failed] at hfailed
  rw [rollup_skipped] at hskipped
  have hfailure : s.outcome.isFailure = group.any Outcome.isFailure := by
    rw [← hfailed]
    unfold outcome
    cases s.flags.failed <;> cases s.flags.skipped <;> rfl
  -- a failure hides the skips of the group, in its outcome as in the whole
  have hskip : s.outcome.isSkip = (group.any Outcome.isSkip && !group.any Outcome.isFailure) := by
    rw [← hskipped]
    unfold outcome
    cases hf : s.flags.failed with
    | false => cases s.flags.skipped <;> rfl
    | true => simp [hskipped, ← hfailed, hf, Outcome.isSkip]
  simp only [rollup, List.any_append, List.any_cons, List.any_nil, Bool.or_false, hfailure, hskip]
  cases before.any Outcome.isFailure <;> cases group.any Outcome.isFailure <;>
    cases after.any Outcome.isFailure <;> simp

end Standing

/-- The total time is the exact sum. -/
theorem totalTime?_eq_some_iff {verdicts : List Verdict} {d : Duration} :
    totalTime? verdicts = some d ↔
      d.nanos = Duration.totalNanos (verdicts.map Verdict.duration) :=
  Duration.sum?_eq_some_iff

namespace ScenarioEntry

/-- The scenario stands as its verdicts say. -/
structure Stands (e : ScenarioEntry) : Prop where
  flags : e.standing.flags = rollup (e.content.verdicts.map Verdict.outcome)
  duration : e.standing.duration.nanos =
    Duration.totalNanos (e.content.verdicts.map Verdict.duration)

variable {e e' : ScenarioEntry}

/-- The background stands as its steps say. -/
theorem background_of_tally (h : e.tallyBackground = .done e') :
    e'.content = e.content ∧ ∀ b, e.content.background = some b →
      e'.background.flags = rollup (b.steps.map (·.verdict.outcome)) ∧
        e'.background.duration.nanos =
          Duration.totalNanos (b.steps.map (·.verdict.duration)) := by
  unfold tallyBackground at h
  cases hbackground : e.content.background with
  | none =>
      rw [hbackground] at h
      cases h
      exact ⟨rfl, fun b hb => by simp at hb⟩
  | some b =>
      rw [hbackground] at h
      obtain ⟨s, hs, rfl⟩ := Attempt.map_eq_done_iff.mp h
      obtain ⟨duration, htime, rfl⟩ := Standing.refresh_eq_done_iff.mp hs
      refine ⟨rfl, fun b' hb' => ?_⟩
      obtain rfl := Option.some.inj hb'
      refine ⟨rfl, ?_⟩
      rw [totalTime?_eq_some_iff.mp htime, List.map_map]
      rfl

/-- Rolled up with its background as one, a scenario comes to what all its verdicts come to. -/
theorem rollup_outcomes (hbackground : ∀ b, e.content.background = some b →
      e.background.flags = rollup (b.steps.map (·.verdict.outcome))) :
    rollup e.outcomes = rollup (e.content.verdicts.map Verdict.outcome) := by
  cases hb : e.content.background with
  | none =>
      simp [outcomes, Scenario.verdicts, Scenario.backgroundSteps, hb, Function.comp_def]
  | some b =>
      have hgroup := Standing.rollup_outcome (hbackground b hb)
        (e.content.before.map (·.verdict.outcome))
        (e.content.steps.map (·.verdict.outcome) ++ e.content.after.map (·.verdict.outcome))
      simpa [outcomes, Scenario.verdicts, Scenario.backgroundSteps, hb, Function.comp_def]
        using hgroup

/-- The time of a scenario is the exact sum over all its verdicts. -/
theorem nanos_of_time? {d : Duration} (h : e.time? = some d)
    (hbackground : ∀ b, e.content.background = some b →
      e.background.duration.nanos = Duration.totalNanos (b.steps.map (·.verdict.duration))) :
    d.nanos = Duration.totalNanos (e.content.verdicts.map Verdict.duration) := by
  obtain ⟨hooks, hhooks, h⟩ := Option.bind_eq_some_iff.mp h
  obtain ⟨steps, hsteps, h⟩ := Option.bind_eq_some_iff.mp h
  obtain ⟨own, hown, h⟩ := Option.bind_eq_some_iff.mp h
  rw [totalTime?_eq_some_iff] at hhooks hsteps
  rw [Duration.add?_eq_some_iff] at hown h
  -- hooks, steps and background in the order of the sum; only the grouping differs
  simp only [Duration.totalNanos_eq_sum, List.map_map] at hhooks hsteps hbackground ⊢
  rw [h, hown, hhooks, hsteps]
  cases hb : e.content.background with
  | none =>
      simp [Scenario.verdicts, Scenario.backgroundSteps, hb, Duration.zero, Function.comp_def]
      omega
  | some b =>
      simp [Scenario.verdicts, Scenario.backgroundSteps, hb, hbackground b hb, Function.comp_def]
      omega

/-- A scenario that is tallied stands as its verdicts say. -/
theorem stands_of_tally (h : e.tally = .done e') : e'.Stands := by
  obtain ⟨e₁, hfirst, hrest⟩ := Attempt.andThen_eq_done_iff.mp h
  obtain ⟨s, hs, rfl⟩ := Attempt.map_eq_done_iff.mp hrest
  obtain ⟨duration, htime, rfl⟩ := Standing.refresh_eq_done_iff.mp hs
  obtain ⟨hcontent, hbackground⟩ := background_of_tally hfirst
  rw [← hcontent] at hbackground
  exact ⟨rollup_outcomes fun b hb => (hbackground b hb).1,
    nanos_of_time? htime fun b hb => (hbackground b hb).2⟩

end ScenarioEntry

end ScenarioResults
