import ScenarioResults.Proofs.Tree.Completion

/-!
# Precedence among the parts of a scenario

A scenario consists of setup hooks, the steps of its background, steps and teardown hooks. A tally
rolls the background up on its own and takes it for a single part; the times take another route. In
the end the scenario nevertheless stands as all parts together say, wherever each of them is: one
failure makes it fail, otherwise one skip makes it skip, and its time is the exact sum
(`ScenarioEntry.judged_of_tally`).

## Shape of the proof

`Standing.Judges` says what the parts, taken as one list, make of a scenario. A scenario that is
tallied stands so (`ScenarioEntry.judges_of_tally`, from its flags and its time as roll-ups of all
verdicts). Nothing else stands so (`Judges.unique`), and the order of the parts does not matter
(`Judges.perm`); so scenarios with the same parts in any places come to the same.
-/

namespace ScenarioResults

open Duration (totalNanos longest)

/-! ## Roll-ups -/

/-- Failed and undefined count as failures. -/
theorem Outcome.isFailure_iff {o : Outcome} :
    o.isFailure = true ↔ o = .failed ∨ o = .undefined := by
  cases o <;> simp [isFailure]

/-- Only skipped counts as a skip. -/
theorem Outcome.isSkip_iff {o : Outcome} : o.isSkip = true ↔ o = .skipped := by
  cases o <;> simp [isSkip]

/-- One failure makes the whole fail. -/
theorem rollup_failed_iff {outcomes : List Outcome} :
    (rollup outcomes).failed = true ↔ ∃ o ∈ outcomes, o = .failed ∨ o = .undefined := by
  simp only [rollup_failed, List.any_eq_true, Outcome.isFailure_iff]

/-- One skip makes the whole skip, unless there is a failure. -/
theorem rollup_skipped_iff {outcomes : List Outcome} :
    (rollup outcomes).skipped = true ↔
      (¬ ∃ o ∈ outcomes, o = .failed ∨ o = .undefined) ∧ .skipped ∈ outcomes := by
  rw [rollup_skipped, Bool.and_eq_true, Bool.not_eq_true', ← Bool.not_eq_true, ← rollup_failed,
    rollup_failed_iff, List.any_eq_true]
  simp [Outcome.isSkip_iff, and_comm]

/-- Without a failure and without a skip every outcome is a pass. -/
theorem forall_passed_iff {outcomes : List Outcome} :
    (∀ o ∈ outcomes, o = .passed) ↔
      (¬ ∃ o ∈ outcomes, o = .failed ∨ o = .undefined) ∧ .skipped ∉ outcomes := by
  constructor
  · intro h
    refine ⟨?_, fun hskip => ?_⟩
    · rintro ⟨o, ho, rfl | rfl⟩ <;> cases h _ ho
    · cases h _ hskip
  · rintro ⟨hfailure, hskip⟩ o ho
    cases o with
    | passed => rfl
    | failed => exact absurd ⟨_, ho, Or.inl rfl⟩ hfailure
    | undefined => exact absurd ⟨_, ho, Or.inr rfl⟩ hfailure
    | skipped => exact absurd ho hskip

/-! ## Judging a scenario by its parts -/

/-- The outcome and the time of each setup hook, background step, step and teardown hook. -/
def Scenario.parts (s : Scenario) : List (Outcome × Duration) :=
  s.verdicts.map fun v => (v.outcome, v.duration)

/-- The durations of a scenario are those of its parts. -/
theorem Scenario.durations_eq_parts (s : Scenario) : s.durations = s.parts.map Prod.snd := by
  rw [parts, durations, List.map_map]
  rfl

namespace Standing

/-- The parts make a scenario stand like this: a failure goes before a skip and a skip before a
pass, and the times add up. It failed exactly when some part failed or was undefined, it skipped
exactly when none did and some part skipped, and it passed exactly when every part did. -/
structure Judges (s : Standing) (parts : List (Outcome × Duration)) : Prop where
  failed : s.flags.failed = true ↔
    ∃ o ∈ parts.map Prod.fst, o = Outcome.failed ∨ o = Outcome.undefined
  skipped : s.flags.skipped = true ↔
    (¬ ∃ o ∈ parts.map Prod.fst, o = Outcome.failed ∨ o = Outcome.undefined) ∧
      Outcome.skipped ∈ parts.map Prod.fst
  passed : s.isPassed = true ↔ ∀ o ∈ parts.map Prod.fst, o = Outcome.passed
  duration : s.duration.nanos = totalNanos (parts.map Prod.snd)

variable {s s' : Standing} {parts parts' : List (Outcome × Duration)}

/-- Flags and nanoseconds are all there is to a standing. -/
theorem eq_of_nanos (hflags : s.flags = s'.flags)
    (hduration : s.duration.nanos = s'.duration.nanos) : s = s' := by
  cases s
  cases s'
  congr
  exact Duration.ext hduration

/-- Flags rolled up and the exact time are all there is to it. -/
theorem judges_iff : s.Judges parts ↔ s.flags = rollup (parts.map Prod.fst) ∧
    s.duration.nanos = totalNanos (parts.map Prod.snd) := by
  constructor
  · intro h
    refine ⟨?_, h.duration⟩
    have hfailed : s.flags.failed = (rollup (parts.map Prod.fst)).failed :=
      Bool.eq_iff_iff.mpr (h.failed.trans rollup_failed_iff.symm)
    have hskipped : s.flags.skipped = (rollup (parts.map Prod.fst)).skipped :=
      Bool.eq_iff_iff.mpr (h.skipped.trans rollup_skipped_iff.symm)
    calc s.flags = ⟨s.flags.failed, s.flags.skipped⟩ := rfl
      _ = ⟨(rollup (parts.map Prod.fst)).failed, (rollup (parts.map Prod.fst)).skipped⟩ := by
          rw [hfailed, hskipped]
      _ = rollup (parts.map Prod.fst) := rfl
  · rintro ⟨hflags, hduration⟩
    refine ⟨?_, ?_, ?_, hduration⟩
    · rw [hflags, rollup_failed_iff]
    · rw [hflags, rollup_skipped_iff]
    · have hpassed : s.isPassed = true ↔ ¬ s.flags.failed = true ∧ ¬ s.flags.skipped = true := by
        simp [isPassed]
      rw [hpassed, hflags, forall_passed_iff, rollup_failed_iff, rollup_skipped_iff]
      exact and_congr_right fun hfailure => not_congr (and_iff_right hfailure)

/-- The parts leave no choice. -/
theorem Judges.unique (h : s.Judges parts) (h' : s'.Judges parts) : s = s' := by
  obtain ⟨hflags, hduration⟩ := judges_iff.mp h
  obtain ⟨hflags', hduration'⟩ := judges_iff.mp h'
  exact eq_of_nanos (hflags.trans hflags'.symm) (hduration.trans hduration'.symm)

/-- The order of the parts does not matter. -/
theorem Judges.perm (h : s.Judges parts) (hperm : parts.Perm parts') : s.Judges parts' := by
  have hmem : ∀ o, o ∈ parts.map Prod.fst ↔ o ∈ parts'.map Prod.fst := fun o =>
    (hperm.map Prod.fst).mem_iff
  have htotal := Duration.totalNanos_perm (hperm.map Prod.snd)
  obtain ⟨hfailed, hskipped, hpassed, hduration⟩ := h
  simp only [hmem] at hfailed hskipped hpassed
  exact ⟨hfailed, hskipped, hpassed, hduration.trans htotal⟩

end Standing

/-! ## Tallied scenarios -/

namespace ScenarioEntry

variable {e e' : ScenarioEntry}

/-- A scenario that is tallied stands as its parts say. -/
theorem judges_of_tally (h : e.tally = .done e') : e'.standing.Judges e.content.parts := by
  obtain ⟨hflags, hduration⟩ := stands_of_tally h
  rw [content_of_tally h] at hflags hduration
  refine Standing.judges_iff.mpr ⟨?_, ?_⟩
  · rw [hflags, Scenario.parts, List.map_map]
    rfl
  · rw [hduration, ← Scenario.durations_eq_parts, Scenario.durations]

/-- A scenario is tallied exactly when what it records fits. -/
theorem exists_tally_iff :
    (∃ e', e.tally = .done e') ↔ totalNanos e.content.durations ≤ longest := by
  constructor
  · rintro ⟨e', h⟩
    rw [Scenario.durations_eq_parts, ← (judges_of_tally h).duration]
    exact e'.standing.duration.nanos_le_longest
  · exact exists_tally

/-- Scenarios with the same parts stand alike, or neither is tallied. -/
theorem standing_of_perm {d : ScenarioEntry} (hperm : e.content.parts.Perm d.content.parts) :
    e.tally.done?.map standing = d.tally.done?.map standing := by
  have htotal : totalNanos e.content.durations = totalNanos d.content.durations := by
    rw [Scenario.durations_eq_parts, Scenario.durations_eq_parts]
    exact Duration.totalNanos_perm (hperm.map Prod.snd)
  by_cases hfits : totalNanos e.content.durations ≤ longest
  · obtain ⟨e', he⟩ := exists_tally hfits
    obtain ⟨d', hd⟩ := exists_tally (htotal ▸ hfits)
    have hsame : e'.standing = d'.standing :=
      ((judges_of_tally he).perm hperm).unique (judges_of_tally hd)
    rw [he, hd]
    exact congrArg some hsame
  · have he : e.tally.done? = none :=
      Attempt.done?_eq_none_iff.mpr fun hdone => hfits (exists_tally_iff.mp hdone)
    have hd : d.tally.done? = none :=
      Attempt.done?_eq_none_iff.mpr fun hdone => hfits (htotal ▸ exists_tally_iff.mp hdone)
    rw [he, hd]

/-- Whatever hooks, background steps and steps a scenario has, and however it stood before: it is
tallied exactly when the sum of their times is in range. It then stands as all of them together say.
A scenario with the same outcomes and times at other places, be it in another order or in another of
the four lists, comes to the same. -/
theorem judged_of_tally (e : ScenarioEntry) :
    ((∃ e', e.tally = .done e') ↔ totalNanos e.content.durations ≤ longest) ∧
      (∀ e', e.tally = .done e' →
        e'.content = e.content ∧ e'.standing.Judges e.content.parts) ∧
        ∀ d : ScenarioEntry, e.content.parts.Perm d.content.parts →
          e.tally.done?.map standing = d.tally.done?.map standing :=
  ⟨exists_tally_iff, fun _ h => ⟨content_of_tally h, judges_of_tally h⟩,
    fun _ hperm => standing_of_perm hperm⟩

/-- A background that skips and then fails makes its scenario fail, and so do a skipped setup hook
and a failed step without a background. -/
theorem judged_of_tally_background :
    let e : ScenarioEntry :=
      { content :=
          { header := {}
            background := some
              { keyword := "Background"
                name := ""
                line := none
                steps := [.settle {} none { outcome := .skipped, duration := ⟨2, by decide⟩ },
                  .settle {} none { outcome := .undefined, duration := ⟨3, by decide⟩ }] }
            after := [.settle {} { outcome := .passed, duration := ⟨4, by decide⟩ }] }
        standing := { flags := { skipped := true } } }
    let d : ScenarioEntry :=
      { content :=
          { header := {}
            before := [.settle {} { outcome := .skipped, duration := ⟨2, by decide⟩ }]
            steps := [.settle {} none { outcome := .passed, duration := ⟨4, by decide⟩ },
              .settle {} none { outcome := .undefined, duration := ⟨3, by decide⟩ }] } }
    (∃ e', e.tally = .done e') ∧ e.tally.value.standing.Judges e.content.parts ∧
      e.tally.value.isFailed = true ∧
        e.tally.done?.map standing = d.tally.done?.map standing := by
  intro e d
  obtain ⟨hdone, hjudges, hperm⟩ := judged_of_tally e
  have htally : e.tally = .done e.tally.value := by decide
  refine ⟨hdone.mpr (by decide), (hjudges _ htally).2, by decide, hperm d ?_⟩
  decide

end ScenarioEntry

end ScenarioResults
