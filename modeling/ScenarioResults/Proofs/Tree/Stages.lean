import ScenarioResults.Proofs.Name.Alike
import ScenarioResults.Proofs.Tree.Standing

/-!
# The stages of a completed tally

A tally that completes has completed all its stages, and what it leaves is put together from their
results: `tallyBackground_eq_done_iff` and `tally_eq_done_iff` say so for a background, a scenario, a
feature and a tree, in both directions. So a tally is known to complete once its stages are, and a
second tally finds at each stage what the first one left (`Tree.tally_of_done`). A merge is two
tallies (`Tree.summary_merge_eq_some_iff`); each feature is changed by the first that it goes through
and by none after it (`Tree.values_merge`).
-/

namespace ScenarioResults

open Name (Family)

/-! ## Scenarios -/

namespace ScenarioEntry

variable {e e' : ScenarioEntry}

/-- When the background of a scenario is tallied: it has none, or its steps have a total time. -/
theorem tallyBackground_eq_done_iff : e.tallyBackground = .done e' ↔
    (e.content.background = none ∧ e' = e) ∨ ∃ b duration, e.content.background = some b ∧
      totalTime? (b.steps.map Step.verdict) = some duration ∧
        e' = { e with
          background := { flags := rollup (b.steps.map (·.verdict.outcome)), duration } } := by
  unfold tallyBackground
  cases hbackground : e.content.background with
  | none => simp [eq_comm]
  | some b =>
      simp only [Attempt.map_eq_done_iff, Standing.refresh_eq_done_iff]
      constructor
      · rintro ⟨s, ⟨duration, htime, rfl⟩, rfl⟩
        exact Or.inr ⟨b, duration, rfl, htime, rfl⟩
      · rintro (⟨h, -⟩ | ⟨_, duration, hb, htime, rfl⟩)
        · cases h
        · cases hb
          exact ⟨_, ⟨duration, htime, rfl⟩, rfl⟩

/-- When a scenario is tallied: its background is, and it has a time itself. -/
theorem tally_eq_done_iff : e.tally = .done e' ↔ ∃ e₁ duration, e.tallyBackground = .done e₁ ∧
    e₁.time? = some duration ∧
      e' = { e₁ with standing := { flags := rollup e₁.outcomes, duration } } := by
  simp only [tally, Attempt.andThen_eq_done_iff, Attempt.map_eq_done_iff,
    Standing.refresh_eq_done_iff]
  constructor
  · rintro ⟨e₁, hfirst, s, ⟨duration, htime, rfl⟩, rfl⟩
    exact ⟨e₁, duration, hfirst, htime, rfl⟩
  · rintro ⟨e₁, duration, hfirst, htime, rfl⟩
    exact ⟨e₁, hfirst, _, ⟨duration, htime, rfl⟩, rfl⟩

/-- A scenario that is tallied again stays as it is. -/
theorem tally_of_done (h : e.tally = .done e') : e'.tally = .done e' := by
  obtain ⟨e₁, duration, hfirst, htime, hlast⟩ := tally_eq_done_iff.mp h
  -- how the background stands was computed from its steps, and these have not changed
  have hbackground : e'.tallyBackground = .done e' := by
    rw [tallyBackground_eq_done_iff, hlast]
    rcases tallyBackground_eq_done_iff.mp hfirst with ⟨hnone, rfl⟩ | ⟨b, time, hsome, hb, rfl⟩
    · exact Or.inl ⟨hnone, rfl⟩
    · exact Or.inr ⟨b, time, hsome, hb, rfl⟩
  refine tally_eq_done_iff.mpr ⟨e', duration, hbackground, ?_, ?_⟩
  · rw [hlast]
    exact htime
  · rw [hlast]
    rfl

/-- A tallied scenario records the same. -/
theorem content_of_tally (h : e.tally = .done e') : e'.content = e.content := by
  have hcontent := e.content_tally
  rwa [h, Attempt.value_done] at hcontent

end ScenarioEntry

/-! ## Features -/

namespace FeatureEntry

variable {f f' : FeatureEntry}

/-- The feature with these tallied scenarios: they are named, and the rest is derived from them. -/
def summarized (f : FeatureEntry) (scenarios : Family ScenarioEntry) (counts : Counts) :
    FeatureEntry :=
  let f := { f with scenarios }
  { f.nameScenarios with
    summary :=
      { counts, failed := f.failedScenarios, index := f.nameScenarios.scenarios.labels } }

/-- When a feature is tallied: its scenarios are, and their counters have a sum. -/
theorem tally_eq_done_iff : f.tally = .done f' ↔ ∃ scenarios counts,
    f.scenarios.attempt ScenarioEntry.tally = .done scenarios ∧
      Counts.sum? (scenarios.values.map ScenarioEntry.counts) = some counts ∧
        f' = f.summarized scenarios counts := by
  simp only [tally, Attempt.andThen_eq_done_iff, Attempt.map_eq_done_iff,
    Attempt.require_eq_done_iff]
  constructor
  · rintro ⟨_, ⟨scenarios, hscenarios, rfl⟩, counts, hcounts, h⟩
    cases h
    exact ⟨scenarios, counts, hscenarios, hcounts, rfl⟩
  · rintro ⟨scenarios, counts, hscenarios, hcounts, rfl⟩
    exact ⟨_, ⟨scenarios, hscenarios, rfl⟩, counts, hcounts, rfl⟩

@[simp]
theorem values_summarized (f : FeatureEntry) (scenarios : Family ScenarioEntry) (counts : Counts) :
    (f.summarized scenarios counts).scenarios.values = scenarios.values := by
  simp [summarized, nameScenarios]

/-- What is derived from scenarios is derived from them again once they are named. -/
theorem summarized_summarized (f : FeatureEntry) (scenarios : Family ScenarioEntry)
    (counts : Counts) :
    (f.summarized scenarios counts).summarized (f.summarized scenarios counts).scenarios counts =
      f.summarized scenarios counts := by
  simp only [summarized, nameScenarios, failedScenarios, Family.labelAll_labelAll,
    Family.values_labelAll]

/-- A feature that is tallied again stays as it is. -/
theorem tally_of_done (h : f.tally = .done f') : f'.tally = .done f' := by
  obtain ⟨scenarios, counts, hscenarios, hcounts, rfl⟩ := tally_eq_done_iff.mp h
  refine tally_eq_done_iff.mpr ⟨_, counts, Family.attempt_eq_self fun e he => ?_, ?_,
    (f.summarized_summarized scenarios counts).symm⟩
  · rw [values_summarized] at he
    obtain ⟨e₀, he₀⟩ := Family.exists_of_mem_attempt hscenarios he
    exact ScenarioEntry.tally_of_done he₀
  · rw [values_summarized]
    exact hcounts

/-- A tallied feature records the same. -/
theorem content_of_tally (h : f.tally = .done f') : f'.content = f.content := by
  have hcontent := f.content_tally
  rwa [h, Attempt.value_done] at hcontent

/-- Scenarios that are alike are alike when their features have been tallied. -/
theorem alike_of_tally {g g' : FeatureEntry} {R S : ScenarioEntry → ScenarioEntry → Prop}
    (h : f.scenarios.Alike R g.scenarios) (hf : f.tally = .done f') (hg : g.tally = .done g')
    (hstep : ∀ e d e' d', R e d → e.tally = .done e' → d.tally = .done d' → S e' d')
    (hbase : ∀ e d, S e d →
      scenarioBase f.header e.content.header = scenarioBase g.header d.content.header) :
    f'.scenarios.Alike S g'.scenarios := by
  obtain ⟨scenarios, counts, hscenarios, -, rfl⟩ := tally_eq_done_iff.mp hf
  obtain ⟨scenarios', counts', hscenarios', -, rfl⟩ := tally_eq_done_iff.mp hg
  exact (h.attempt hscenarios hscenarios' hstep).labelAll hbase

end FeatureEntry

/-! ## Trees -/

namespace Tree

variable {t t' : Tree}

/-- The groups by tag are read off the features, whatever their names are. -/
theorem tagGroups_congr (h : t'.features.values = t.features.values) : t'.tagGroups = t.tagGroups := by
  have hfeature : ∀ i, t'.feature? i = t.feature? i := fun i => by
    rw [feature?, feature?, Family.get?_eq, Family.get?_eq, h]
  simp only [tagGroups, scenarios, tagsOf, h, hfeature]

/-- The tree of these tallied features: they are named, and the rest is derived from them. -/
def summarized (features : Family FeatureEntry) (counts : Counts) (tags : List TagGroup) : Tree :=
  { features := features.labelAll FeatureEntry.base
    summary :=
      { counts
        failed := ({ features } : Tree).failedScenarios
        index := (features.labelAll FeatureEntry.base).labels
        tags } }

/-- When a tree is tallied: its features are, their counters have a sum, and so have the groups by
tag. -/
theorem tally_eq_done_iff : t.tally = .done t' ↔ ∃ features counts tags,
    t.features.attempt FeatureEntry.tally = .done features ∧
      Counts.sum? (features.values.map (·.summary.counts)) = some counts ∧
        ({ features } : Tree).tagGroups = some tags ∧ t' = summarized features counts tags := by
  simp only [tally, Attempt.andThen_eq_done_iff, Attempt.map_eq_done_iff,
    Attempt.require_eq_done_iff]
  constructor
  · rintro ⟨_, ⟨features, hfeatures, rfl⟩, counts, hcounts, tags, htags, h⟩
    cases h
    refine ⟨features, counts, tags, hfeatures, hcounts, ?_, rfl⟩
    rw [← htags]
    exact tagGroups_congr (Family.values_labelAll _ _).symm
  · rintro ⟨features, counts, tags, hfeatures, hcounts, htags, rfl⟩
    refine ⟨_, ⟨features, hfeatures, rfl⟩, counts, hcounts, tags, ?_, rfl⟩
    rw [← htags]
    exact tagGroups_congr (Family.values_labelAll _ _)

@[simp]
theorem values_summarized (features : Family FeatureEntry) (counts : Counts)
    (tags : List TagGroup) : (summarized features counts tags).features.values = features.values :=
  Family.values_labelAll _ _

/-- What is derived from features is derived from them again once they are named. -/
theorem summarized_summarized (features : Family FeatureEntry) (counts : Counts)
    (tags : List TagGroup) :
    summarized (summarized features counts tags).features counts tags =
      summarized features counts tags := by
  have hfailed : ({ features := features.labelAll FeatureEntry.base } : Tree).failedScenarios =
      ({ features } : Tree).failedScenarios := by
    simp only [failedScenarios, scenarios, Family.values_labelAll]
  simp only [summarized, Family.labelAll_labelAll, hfailed]

/-- A tally names the tallied features. -/
theorem features_of_tally (h : t.tally = .done t') {features : Family FeatureEntry}
    (hfeatures : t.features.attempt FeatureEntry.tally = .done features) :
    t'.features = features.labelAll FeatureEntry.base := by
  obtain ⟨features', counts, tags, hfeatures', -, -, rfl⟩ := tally_eq_done_iff.mp h
  obtain rfl : features = features' := Attempt.done.inj (hfeatures.symm.trans hfeatures')
  rfl

/-- The features of a tallied tree stay as they are when they are tallied again. -/
theorem attempt_features_of_done (h : t.tally = .done t') :
    t'.features.attempt FeatureEntry.tally = .done t'.features := by
  obtain ⟨features, counts, tags, hfeatures, -, -, rfl⟩ := tally_eq_done_iff.mp h
  refine Family.attempt_eq_self fun f hf => ?_
  rw [values_summarized] at hf
  obtain ⟨f₀, hf₀⟩ := Family.exists_of_mem_attempt hfeatures hf
  exact FeatureEntry.tally_of_done hf₀

/-- A tree that is tallied again stays as it is. -/
theorem tally_of_done (h : t.tally = .done t') : t'.tally = .done t' := by
  have hagain := attempt_features_of_done h
  obtain ⟨features, counts, tags, -, hcounts, htags, rfl⟩ := tally_eq_done_iff.mp h
  have hvalues := values_summarized features counts tags
  refine tally_eq_done_iff.mpr ⟨_, counts, tags, hagain, ?_, ?_,
    (summarized_summarized features counts tags).symm⟩
  · rw [hvalues]
    exact hcounts
  · rw [← htags]
    exact tagGroups_congr hvalues

/-- A tallied tree is its features: all else is derived from them. -/
theorem eq_of_features_eq {u u' : Tree} (ht : t.tally = .done t') (hu : u.tally = .done u')
    (h : t'.features = u'.features) : t' = u' := by
  have hagain := tally_eq_done_iff.mp (tally_of_done ht)
  rw [h] at hagain
  have htally := (tally_of_done hu).symm.trans (tally_eq_done_iff.mpr hagain)
  exact (Attempt.done.inj htally).symm

/-- A tallied tree records the same. -/
theorem content_of_tally (h : t.tally = .done t') : t'.content = t.content := by
  have hcontent := t.content_tally
  rwa [h, Attempt.value_done] at hcontent

/-- Features that are alike are alike when their trees have been tallied. -/
theorem alike_of_tally {u u' : Tree} {R S : FeatureEntry → FeatureEntry → Prop}
    (h : t.features.Alike R u.features) (ht : t.tally = .done t') (hu : u.tally = .done u')
    (hstep : ∀ f g f' g', R f g → f.tally = .done f' → g.tally = .done g' → S f' g')
    (hbase : ∀ f g, S f g → f.base = g.base) : t'.features.Alike S u'.features := by
  obtain ⟨features, counts, tags, hfeatures, -, -, rfl⟩ := tally_eq_done_iff.mp ht
  obtain ⟨features', counts', tags', hfeatures', -, -, rfl⟩ := tally_eq_done_iff.mp hu
  exact (h.attempt hfeatures hfeatures' hstep).labelAll hbase

/-- The index of a tallied tree lists the names of its features. -/
theorem index_of_tally (h : t.tally = .done t') : t'.summary.index = t'.features.labels := by
  obtain ⟨features, counts, tags, -, -, -, rfl⟩ := tally_eq_done_iff.mp h
  rfl

/-- A tally makes of each feature what it makes of it alone. -/
theorem values_of_tally (h : t.tally = .done t') :
    t'.features.values = t.features.values.map fun f => f.tally.value := by
  obtain ⟨features, counts, tags, hfeatures, -, -, rfl⟩ := tally_eq_done_iff.mp h
  rw [values_summarized]
  exact Family.values_of_attempt hfeatures

/-- The feature at a position is tallied like the others. -/
theorem exists_feature?_of_tally (h : t.tally = .done t') {i : ℕ} {f : FeatureEntry}
    (hf : t.feature? i = some f) : ∃ f', t'.feature? i = some f' ∧ f.tally = .done f' := by
  obtain ⟨features, counts, tags, hfeatures, -, -, rfl⟩ := tally_eq_done_iff.mp h
  have heach := (Family.attempt_eq_done_iff.mp hfeatures).1
  rw [feature?, Family.get?_eq] at hf
  obtain ⟨hi, rfl⟩ := List.getElem?_eq_some_iff.mp hf
  have hi' : i < features.values.length := heach.length_eq ▸ hi
  refine ⟨features.values[i], ?_, heach.get hi hi'⟩
  rw [feature?, Family.get?_eq, values_summarized, List.getElem?_eq_getElem hi']

/-- The features of a tallied tree are not changed by another tally. -/
theorem map_tally_of_done (h : t.tally = .done t') :
    t'.features.values.map (fun f => f.tally.value) = t'.features.values :=
  (values_of_tally (tally_of_done h)).symm

/-! ## Merges -/

/-- The content of both trees comes one after the other. -/
theorem content_append (base incoming : Tree) :
    (base.append incoming).content = base.content ++ incoming.content := by
  simp [content, append]

/-- A merge that completes has completed the tally of the incoming tree, and then that of the base
with the tallied features behind its own. -/
theorem summary_merge_eq_some_iff {base incoming : Tree} {s : MergeSummary} :
    (base.merge incoming).summary = some s ↔ ∃ tallied, incoming.tally = .done tallied ∧
      (base.append tallied).tally = .done (base.merge incoming).tree ∧
        s = {
          features := tallied.features.size
          scenarios := tallied.scenarios.length
          counts := tallied.summary.counts } := by
  cases hfirst : incoming.tally with
  | halted _ => simp [merge, hfirst]
  | done tallied =>
      cases hlast : (base.append tallied).tally with
      | halted _ => simp [merge, hfirst, hlast]
      | done merged => simp [merge, hfirst, hlast, eq_comm]

/-- A completed merge leaves the features of both trees, each as its own tally leaves it. -/
theorem values_merge {base incoming tallied : Tree} {s : MergeSummary}
    (hs : (base.merge incoming).summary = some s) (htally : incoming.tally = .done tallied) :
    (base.merge incoming).tree.features.values =
      (base.features.values.map fun f => f.tally.value) ++ tallied.features.values := by
  obtain ⟨tallied', htally', hmerged, -⟩ := summary_merge_eq_some_iff.mp hs
  obtain rfl : tallied = tallied' := by
    rw [htally] at htally'
    exact Attempt.done.inj htally'
  rw [values_of_tally hmerged, append, Family.values_adopt, List.map_append,
    map_tally_of_done htally]

end Tree

end ScenarioResults
