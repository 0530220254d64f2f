import ScenarioResults.Proofs.Tree.Groups
import ScenarioResults.Proofs.Tree.Lookup
import ScenarioResults.Proofs.Tree.Stages

/-!
# Counters and lists of failures agree

A tally derives the counters and the lists of failures of a tree, its features and its groups by tag
in separate passes. When it completes they agree, whatever was derived before: at each node the
counters are the sum over the scenarios of that node, and the failures are those of its scenarios
that failed, in tree order (`Tree.balanced_of_done`).

## Shape of the proof

`Balances` says that counters and failures are right for a list of scenarios. For any part of a
tree's scenarios it follows from the bare sum and the bare list (`balances_of_sublist`). These two
are read off the stages of the tally: for a feature from its own (`FeatureEntry.summary_of_tally`),
for the tree by adding up the features (`Counts.IsSum.flatMap`), and for a group from
`groups_tagGroups`.
-/

namespace ScenarioResults

variable {t t' : Tree}

/-- Counters `c` and failures `ids` are those of the scenarios. The counters are the sum of theirs
and count each scenario once; the failures are the scenarios that failed, in tree order and hence
without repetition, as many as the counters say. -/
structure Balances (scenarios : List (ScenarioId × ScenarioEntry)) (c : Counts)
    (ids : List ScenarioId) : Prop where
  counts : c.IsSum (scenarios.map fun x => x.2.counts)
  total : c.total = scenarios.length
  failed : ids = (scenarios.filter fun x => x.2.isFailed).map Prod.fst
  order : ids.Pairwise ScenarioId.Before
  length : ids.length = c.fail

/-- A scenario counts as one. -/
theorem ScenarioEntry.total_counts (e : ScenarioEntry) : e.counts.total = 1 :=
  Counts.total_ofUnit _ _ _

/-- A sum over scenarios counts those that failed. -/
theorem fail_eq_length {scenarios : List (ScenarioId × ScenarioEntry)} {c : Counts}
    (h : c.IsSum (scenarios.map fun x => x.2.counts)) :
    c.fail = (scenarios.filter fun x => x.2.isFailed).length := by
  rw [h.fail]
  clear h
  induction scenarios with
  | nil => rfl
  | cons x xs ih =>
      simp only [List.map_cons, List.sum_cons, ih]
      have hunit : x.2.counts.fail = x.2.isFailed.toNat := rfl
      cases hfailed : x.2.isFailed <;> simp [hunit, hfailed]
      omega

namespace Tree

/-- A part of the tree's scenarios balances when the sum and the list are right. -/
theorem balances_of_sublist {scenarios : List (ScenarioId × ScenarioEntry)} {c : Counts}
    {ids : List ScenarioId} (hsub : scenarios.Sublist t.scenarios)
    (hcounts : c.IsSum (scenarios.map fun x => x.2.counts))
    (hfailed : ids = (scenarios.filter fun x => x.2.isFailed).map Prod.fst) :
    Balances scenarios c ids where
  counts := hcounts
  total := by
    rw [hcounts.total_eq_length, List.length_map]
    intro c hc
    obtain ⟨x, -, rfl⟩ := List.mem_map.mp hc
    exact x.2.total_counts
  failed := hfailed
  order := by
    rw [hfailed, List.pairwise_map]
    exact t.pairwise_before_scenarios.sublist (List.filter_sublist.trans hsub)
  length := by rw [hfailed, List.length_map, fail_eq_length hcounts]

/-- The scenarios of a node. -/
def scenariosAt (t : Tree) : Target → List (ScenarioId × ScenarioEntry)
  | .root => t.scenarios
  | .feature i => (t.feature? i).elim [] (featureScenarios · i)
  | .scenario id => ((t.scenario? id).map fun e => (id, e)).toList
  | .tag name => t.scenarios.filter fun x => name ∈ t.tagsOf x.1 x.2

/-- What a completed tally promises of counters and lists of failures. Each scenario stands as its
hooks and steps say and counts as one unit; the tree, each feature and each group by tag balance
over their own scenarios; and wherever a path leads, the counters found there are the sum over the
scenarios there. -/
structure Balanced (t : Tree) : Prop where
  scenarios : ∀ x ∈ t.scenarios, x.2.Stands ∧ x.2.counts.total = 1
  root : Balances t.scenarios t.summary.counts t.summary.failed
  features : ∀ i f, t.feature? i = some f →
    Balances (featureScenarios f i) f.summary.counts (f.summary.failed.map (⟨i, ·⟩)) ∧
      f.summary.counts.total = f.scenarios.size
  tags : ∀ g ∈ t.summary.tags,
    Balances (t.scenarios.filter fun x => g.name ∈ t.tagsOf x.1 x.2) g.counts g.failed
  find : ∀ path target, t.find path = some target →
    ∃ counts, t.countsAt? target = some counts ∧
      counts.IsSum ((t.scenariosAt target).map fun x => x.2.counts)

end Tree

/-! ## Features -/

/-- What a completed tally derives for a feature. -/
theorem FeatureEntry.summary_of_tally {f f' : FeatureEntry} (h : f.tally = .done f') :
    f'.summary.counts.IsSum (f'.scenarios.values.map ScenarioEntry.counts) ∧
      f'.summary.failed = f'.failedScenarios ∧
        ∀ e' ∈ f'.scenarios.values, ∃ e : ScenarioEntry, e.tally = .done e' := by
  obtain ⟨scenarios, counts, hscenarios, hcounts, rfl⟩ := tally_eq_done_iff.mp h
  simp only [failedScenarios, values_summarized]
  exact ⟨Counts.isSum_of_sum? hcounts, rfl, fun _ he => Name.Family.exists_of_mem_attempt hscenarios he⟩

namespace Tree

/-! ## Trees -/

/-- The scenarios of a feature, without their positions. -/
theorem map_featureScenarios {α : Type} (f : FeatureEntry) (i : ℕ) (view : ScenarioEntry → α) :
    (featureScenarios f i).map (fun x => view x.2) = f.scenarios.values.map view := by
  rw [featureScenarios, List.map_map, ← List.zipIdx_map_fst 0 f.scenarios.values, List.map_map,
    List.zipIdx_map_fst]
  rfl

/-- A view of all scenarios is that of the features' scenarios, one feature after the other. -/
theorem map_scenarios {α : Type} (t : Tree) (view : ScenarioEntry → α) :
    t.scenarios.map (fun x => view x.2) =
      t.features.values.flatMap fun f => f.scenarios.values.map view := by
  rw [scenarios, List.map_flatMap]
  simp only [map_featureScenarios]
  rw [← List.zipIdx_map_fst 0 t.features.values, List.flatMap_map, List.zipIdx_map_fst]

/-- The scenarios of a feature are some of those of the tree, in their order. -/
theorem sublist_featureScenarios {i : ℕ} {f : FeatureEntry} (h : t.feature? i = some f) :
    (featureScenarios f i).Sublist t.scenarios := by
  rw [feature?, Name.Family.get?_eq] at h
  rw [scenarios, List.flatMap_def]
  refine List.sublist_flatten_of_mem (List.mem_map.mpr ⟨(f, i), ?_, rfl⟩)
  exact List.mem_zipIdx_iff_getElem?.mpr h

/-- What a completed tally derives for a tree. -/
theorem summary_of_tally (h : t.tally = .done t') :
    t'.summary.counts.IsSum (t'.features.values.map fun f => f.summary.counts) ∧
      t'.summary.failed = t'.failedScenarios ∧ t'.tagGroups = some t'.summary.tags ∧
        ∀ f' ∈ t'.features.values, ∃ f : FeatureEntry, f.tally = .done f' := by
  obtain ⟨features, counts, tags, hfeatures, hcounts, htags, rfl⟩ := tally_eq_done_iff.mp h
  refine ⟨?_, ?_, ?_, fun f hf => ?_⟩
  · rw [values_summarized]
    exact Counts.isSum_of_sum? hcounts
  · simp only [failedScenarios, scenarios, values_summarized]
    rfl
  · exact (tagGroups_congr (values_summarized features counts tags)).trans htags
  · rw [values_summarized] at hf
    exact Name.Family.exists_of_mem_attempt hfeatures hf

/-- What a tally derives for a feature is derived from its tallied scenarios. -/
theorem summary_of_mem (h : t.tally = .done t') {f : FeatureEntry} (hf : f ∈ t'.features.values) :
    f.summary.counts.IsSum (f.scenarios.values.map ScenarioEntry.counts) ∧
      f.summary.failed = f.failedScenarios ∧
        ∀ e' ∈ f.scenarios.values, ∃ e : ScenarioEntry, e.tally = .done e' := by
  obtain ⟨-, -, -, hfeatures⟩ := summary_of_tally h
  obtain ⟨f₀, hf₀⟩ := hfeatures f hf
  exact f₀.summary_of_tally hf₀

/-- What is derived for a whole tree is derived from its features, whatever their names are. -/
theorem summary_of_values_eq {u u' : Tree} (ht : t.tally = .done t') (hu : u.tally = .done u')
    (h : t'.features.values = u'.features.values) :
    t'.summary.counts = u'.summary.counts ∧ t'.summary.failed = u'.summary.failed ∧
      t'.summary.tags = u'.summary.tags := by
  obtain ⟨hcounts, hfailed, htags, -⟩ := summary_of_tally ht
  obtain ⟨hcounts', hfailed', htags', -⟩ := summary_of_tally hu
  rw [h] at hcounts
  refine ⟨hcounts.unique hcounts', ?_, ?_⟩
  · rw [hfailed, hfailed', failedScenarios, failedScenarios, scenarios, scenarios, h]
  · rw [tagGroups_congr h, htags'] at htags
    exact (Option.some.inj htags).symm

/-! ## Levels -/

/-- Where each feature is what its own tally left, each scenario is, too. -/
theorem exists_tally_of_mem
    (h : ∀ f ∈ t.features.values, ∃ f₀ : FeatureEntry, f₀.tally = .done f)
    {x : ScenarioId × ScenarioEntry} (hx : x ∈ t.scenarios) :
    ∃ e : ScenarioEntry, e.tally = .done x.2 := by
  obtain ⟨⟨f, i⟩, hf, hx⟩ := List.mem_flatMap.mp hx
  obtain ⟨⟨e, j⟩, he, rfl⟩ := List.mem_map.mp hx
  obtain ⟨f₀, hf₀⟩ := h f (List.fst_mem_of_mem_zipIdx hf)
  exact (f₀.summary_of_tally hf₀).2.2 e (List.fst_mem_of_mem_zipIdx he)

/-- In a tallied tree every scenario stands as it should. -/
theorem stands_of_tally (h : t.tally = .done t') {x : ScenarioId × ScenarioEntry}
    (hx : x ∈ t'.scenarios) : x.2.Stands :=
  have ⟨_, he⟩ := exists_tally_of_mem (summary_of_tally h).2.2.2 hx
  ScenarioEntry.stands_of_tally he

/-- The tree balances over all its scenarios. -/
theorem balances_of_tally (h : t.tally = .done t') :
    Balances t'.scenarios t'.summary.counts t'.summary.failed := by
  obtain ⟨hcounts, hfailed, -, -⟩ := summary_of_tally h
  refine balances_of_sublist (.refl _) ?_ hfailed
  rw [map_scenarios]
  exact hcounts.flatMap fun f hf => (summary_of_mem h hf).1

/-- Each feature balances over its scenarios. -/
theorem balances_feature_of_tally (h : t.tally = .done t') {i : ℕ} {f : FeatureEntry}
    (hf : t'.feature? i = some f) :
    Balances (featureScenarios f i) f.summary.counts (f.summary.failed.map (⟨i, ·⟩)) := by
  have hmem : f ∈ t'.features.values := by
    rw [feature?, Name.Family.get?_eq] at hf
    exact List.mem_of_getElem? hf
  obtain ⟨hsum, hfailed, -⟩ := summary_of_mem h hmem
  refine balances_of_sublist (sublist_featureScenarios hf) ?_ ?_
  · rwa [map_featureScenarios]
  · rw [hfailed]
    simp [FeatureEntry.failedScenarios, featureScenarios, List.filter_map, Function.comp_def]

/-- Each group balances over the scenarios to which its tag applies. -/
theorem balances_tag_of_tally (h : t.tally = .done t') {g : TagGroup} (hg : g ∈ t'.summary.tags) :
    Balances (t'.scenarios.filter fun x => g.name ∈ t'.tagsOf x.1 x.2) g.counts g.failed := by
  obtain ⟨-, -, htags, -⟩ := summary_of_tally h
  have hcollects := (groups_tagGroups htags).collects g hg
  exact balances_of_sublist List.filter_sublist hcollects.counts hcollects.failed

/-! ## Nodes -/

/-- A single segment leads to a node that is there. -/
theorem isSome_countsAt?_of_segment {a : String} {target : Target}
    (h : t.segmentTarget? a = some target) : (t.countsAt? target).isSome := by
  have hfeature : (t.featureByName? a).map Target.feature = some target →
      (t.countsAt? target).isSome := by
    intro hfeature
    obtain ⟨i, hi, rfl⟩ := Option.map_eq_some_iff.mp hfeature
    have hsome := (Option.filter_eq_some_iff.mp hi).2
    simpa [countsAt?] using hsome
  unfold segmentTarget? at h
  split at h
  · rcases Option.or_eq_some_iff.mp h with htag | ⟨-, h⟩
    · obtain ⟨g, hg, rfl⟩ := Option.map_eq_some_iff.mp htag
      have hsome : (t.tagGroup? g.name).isSome :=
        List.find?_isSome.mpr ⟨g, (mem_of_tagGroupBySafeName? hg).1, beq_self_eq_true _⟩
      simpa [countsAt?] using hsome
    · exact hfeature h
  · exact hfeature h

/-- A path leads to a node that is there. -/
theorem isSome_countsAt?_of_find {path : String} {target : Target}
    (h : t.find path = some target) : (t.countsAt? target).isSome := by
  rcases find_cases h with ⟨-, rfl⟩ | ⟨a, -, -, -, hsegment⟩ | ⟨a, b, id, -, -, -, hid, rfl⟩
  · rfl
  · exact isSome_countsAt?_of_segment hsegment
  · obtain ⟨i, -, hid⟩ := Option.bind_eq_some_iff.mp hid
    obtain ⟨f, hf, hid⟩ := Option.bind_eq_some_iff.mp hid
    obtain ⟨j, -, hid⟩ := Option.bind_eq_some_iff.mp hid
    obtain ⟨e, he, hid⟩ := Option.bind_eq_some_iff.mp hid
    obtain rfl := Option.some.inj hid
    simp [countsAt?, scenario?, hf, he]

/-- The counters of a node are the sum of those of its scenarios. -/
theorem isSum_countsAt? (h : t.tally = .done t') {target : Target} {c : Counts}
    (hc : t'.countsAt? target = some c) :
    c.IsSum ((t'.scenariosAt target).map fun x => x.2.counts) := by
  cases target with
  | root =>
      obtain rfl := Option.some.inj hc
      exact (balances_of_tally h).counts
  | feature i =>
      obtain ⟨f, hf, rfl⟩ := Option.map_eq_some_iff.mp hc
      rw [scenariosAt, hf]
      exact (balances_feature_of_tally h hf).counts
  | scenario id =>
      obtain ⟨e, he, rfl⟩ := Option.map_eq_some_iff.mp hc
      rw [scenariosAt, he]
      exact Counts.isSum_singleton e.counts
  | tag name =>
      obtain ⟨g, hg, rfl⟩ := Option.map_eq_some_iff.mp hc
      obtain rfl : g.name = name := by simpa using List.find?_some hg
      exact (balances_tag_of_tally h (List.mem_of_find?_eq_some hg)).counts

/-- When a tally completes, counters and lists of failures agree at every level of the tree,
whatever the tree was before. -/
theorem balanced_of_done (h : t.tally = .done t') : t'.Balanced where
  scenarios x hx := ⟨stands_of_tally h hx, x.2.total_counts⟩
  root := balances_of_tally h
  features i f hf := by
    have hbalances := balances_feature_of_tally h hf
    refine ⟨hbalances, hbalances.total.trans ?_⟩
    simp [featureScenarios, Name.Family.size_eq_length_values]
  tags g hg := balances_tag_of_tally h hg
  find path target hfind := by
    obtain ⟨c, hc⟩ := Option.isSome_iff_exists.mp (isSome_countsAt?_of_find hfind)
    exact ⟨c, hc, isSum_countsAt? h hc⟩

/-- A tree that grew after its tally counts one passed scenario, until it is tallied again. The tag
of the new one is declared twice. -/
theorem balanced_of_done_stale :
    let base := ((Builder.new {} ({} : Shelf)).processAll
      [.feature { name := "a" }, .scenario { name := "s" }, .endOfDocument]).builder.finish.value
    let t := (((Builder.new {} ({} : Shelf)).continuing base).processAll
      [.feature { name := "b", tags := [{ name := "@x" }] },
        .scenario { name := "r", tags := [{ name := "@x" }] }, .step {},
        .result { outcome := .undefined }]).builder.tree
    t.summary.counts = { pass := 1 } ∧ t.tally = .done t.tally.value ∧
      t.tally.value.Balanced ∧ t.tally.value.summary.counts = { pass := 1, fail := 1 } ∧
        t.tally.value.find "cucumber/@x" = some (.tag "@x") := by
  intro base t
  have hdone : t.tally = .done t.tally.value := by decide +kernel
  refine ⟨?_, hdone, balanced_of_done hdone, ?_, ?_⟩ <;> decide +kernel

end Tree

end ScenarioResults
