import ScenarioResults.Proofs.Name.Alike
import ScenarioResults.Proofs.Tree.Precedence
import ScenarioResults.Proofs.Tree.Reachable

/-!
# What a tally depends on

What is recorded, the names that are assigned and the pools they come from are primary; flags, times,
counters, lists of failures, indices and groups are derived. A tally reads primary state alone: trees
whose primary state agrees are the same after it, however stale anything derived was
(`Tree.tally_of_samePrimary`). Of the primary state it changes the names only, which it completes as
requests in the order of the positions do (`Tree.Completes`).

## Shape of the proof

The relations `SamePrimary` and `Same` are families that are alike, one level inside the other. At
each level a tally turns the first into the second (`ScenarioEntry.same_of_tally` and so on): what it
holds stays alike (`alike_of_tally`), and what is derived is determined by that
(`summary_eq_of_alike`). Failures and groups by tag are read off the scenarios of the tree in order,
which correspond (`Tree.forall₂_scenarios`).
-/

namespace ScenarioResults

open Name (Family)

/-! ## Scenarios -/

namespace ScenarioEntry

variable {e e' d d' : ScenarioEntry}

/-- The entries are the same. How a background stands that is not there is not looked at. -/
structure Same (e d : ScenarioEntry) : Prop where
  content : e.content = d.content
  standing : e.standing = d.standing
  background : e.content.background.isSome → e.background = d.background

/-- Entries that are the same failed alike. -/
theorem Same.isFailed_eq (h : e.Same d) : e.isFailed = d.isFailed :=
  congrArg (fun s => s.flags.failed) h.standing

/-- Entries that are the same count alike. -/
theorem Same.counts_eq (h : e.Same d) : e.counts = d.counts := congrArg Standing.counts h.standing

/-- What a tally leaves is determined by what was recorded. -/
theorem same_of_tally (h : e.content = d.content) (he : e.tally = .done e')
    (hd : d.tally = .done d') : e'.Same d' := by
  have hstanding : e'.standing = d'.standing := by
    have hjudges := judges_of_tally he
    rw [h] at hjudges
    exact hjudges.unique (judges_of_tally hd)
  have hcontent : e'.content = d'.content := by
    rw [content_of_tally he, content_of_tally hd, h]
  refine ⟨hcontent, hstanding, fun hsome => ?_⟩
  obtain ⟨e₁, _, hfirst, -, rfl⟩ := tally_eq_done_iff.mp he
  obtain ⟨d₁, _, hfirst', -, rfl⟩ := tally_eq_done_iff.mp hd
  obtain ⟨b, hb⟩ := Option.isSome_iff_exists.mp hsome
  obtain ⟨hsame, hbackground⟩ := background_of_tally hfirst
  obtain ⟨-, hbackground'⟩ := background_of_tally hfirst'
  have hb' : e.content.background = some b := hsame ▸ hb
  obtain ⟨hflags, htime⟩ := hbackground b hb'
  obtain ⟨hflags', htime'⟩ := hbackground' b (h ▸ hb')
  exact Standing.eq_of_nanos (hflags.trans hflags'.symm) (htime.trans htime'.symm)

end ScenarioEntry

/-! ## Features -/

namespace FeatureEntry

variable {f f' g g' : FeatureEntry}

/-- The same is recorded, the same scenarios have the same names, and the pools answer alike. -/
structure SamePrimary (f g : FeatureEntry) : Prop where
  uri : f.uri = g.uri
  header : f.header = g.header
  scenarios : f.scenarios.Alike (fun e d => e.content = d.content) g.scenarios

/-- The same primary state, as the conjunction of its parts. -/
theorem samePrimary_iff : f.SamePrimary g ↔ f.uri = g.uri ∧ f.header = g.header ∧
    f.scenarios.Alike (fun e d => e.content = d.content) g.scenarios :=
  ⟨fun h => ⟨h.uri, h.header, h.scenarios⟩, fun h => ⟨h.1, h.2.1, h.2.2⟩⟩

instance (f g : FeatureEntry) : Decidable (f.SamePrimary g) := decidable_of_iff _ samePrimary_iff.symm

/-- The entries are the same, up to the order in which their pools list the names. -/
structure Same (f g : FeatureEntry) : Prop where
  uri : f.uri = g.uri
  header : f.header = g.header
  scenarios : f.scenarios.Alike ScenarioEntry.Same g.scenarios
  summary : f.summary = g.summary

/-- The content of a feature is part of its primary state. -/
theorem SamePrimary.content_eq (h : f.SamePrimary g) : f.content = g.content := by
  rw [content, content, h.uri, h.header, map_eq_map_iff.mpr h.scenarios.values]

/-- The failures are the same where the scenarios are. -/
theorem failedScenarios_congr (h : List.Forall₂ ScenarioEntry.Same f.scenarios.values
    g.scenarios.values) : f.failedScenarios = g.failedScenarios :=
  map_filter_congr_of_forall₂ (fun _ _ hsame => hsame.1.isFailed_eq) (fun _ _ hsame => hsame.2)
    (forall₂_zipIdx h 0)

/-- What is derived for a tallied feature is derived from its scenarios. -/
theorem summary_eq_of_alike (hf : f.tally = .done f') (hg : g.tally = .done g')
    (h : f'.scenarios.Alike ScenarioEntry.Same g'.scenarios) : f'.summary = g'.summary := by
  obtain ⟨hcounts, hfailed, -⟩ := summary_of_tally hf
  obtain ⟨hcounts', hfailed', -⟩ := summary_of_tally hg
  rw [map_eq_map_iff.mpr (h.values.imp fun _ _ hsame => hsame.counts_eq)] at hcounts
  have hsum : f'.summary.counts = g'.summary.counts := hcounts.unique hcounts'
  have hfailures : f'.summary.failed = g'.summary.failed := by
    rw [hfailed, hfailed', failedScenarios_congr h.values]
  have hindex : f'.summary.index = g'.summary.index := by
    rw [(index_of_tally hf).1, (index_of_tally hg).1, h.labels]
  calc f'.summary = ⟨f'.summary.counts, f'.summary.failed, f'.summary.index⟩ := rfl
    _ = ⟨g'.summary.counts, g'.summary.failed, g'.summary.index⟩ := by
        rw [hsum, hfailures, hindex]
    _ = g'.summary := rfl

/-- What a tally leaves is determined by the primary state. -/
theorem same_of_tally (h : f.SamePrimary g) (hf : f.tally = .done f') (hg : g.tally = .done g') :
    f'.Same g' := by
  have hcontent : f'.content = g'.content := by
    rw [content_of_tally hf, content_of_tally hg, h.content_eq]
  have hscenarios : f'.scenarios.Alike ScenarioEntry.Same g'.scenarios :=
    alike_of_tally h.scenarios hf hg (fun _ _ _ _ => ScenarioEntry.same_of_tally)
      fun e d hsame => by rw [h.header, hsame.content]
  exact ⟨congrArg Feature.uri hcontent, congrArg Feature.header hcontent, hscenarios,
    summary_eq_of_alike hf hg hscenarios⟩

end FeatureEntry

/-! ## Groups by tag -/

namespace TagGroup

variable {id : ScenarioId} {e d : ScenarioEntry}

/-- A group takes note of how a scenario stands, and of nothing else. -/
theorem add_congr (h : e.Same d) (g : TagGroup) : g.add id e = g.add id d := by
  rw [add, add, h.counts_eq, h.isFailed_eq]

/-- Groups take note of how a scenario stands, and of nothing else. -/
theorem addTo_congr (h : e.Same d) (name : String) (gs : List TagGroup) :
    addTo id e name gs = addTo id d name gs := by
  induction gs with
  | nil => rw [addTo, addTo, add_congr h]
  | cons g gs ih => rw [addTo, addTo, add_congr h, add_congr h, ih]

end TagGroup

/-! ## Trees -/

namespace Tree

variable {t t' u u' : Tree}

/-- The same is recorded, the same names are assigned, and the pools answer alike. -/
def SamePrimary (t u : Tree) : Prop := t.features.Alike FeatureEntry.SamePrimary u.features

instance (t u : Tree) : Decidable (t.SamePrimary u) :=
  inferInstanceAs (Decidable (t.features.Alike FeatureEntry.SamePrimary u.features))

/-- The trees are the same, up to the order in which their pools list the names. -/
structure Same (t u : Tree) : Prop where
  features : t.features.Alike FeatureEntry.Same u.features
  summary : t.summary = u.summary

/-- The content of a tree is part of its primary state. -/
theorem SamePrimary.content_eq (h : t.SamePrimary u) : t.content = u.content :=
  map_eq_map_iff.mpr (h.values.imp fun _ _ hf => hf.content_eq)

/-- The scenarios correspond where those of the features do. -/
theorem forall₂_scenarios
    (h : List.Forall₂ FeatureEntry.Same t.features.values u.features.values) :
    List.Forall₂ (fun x y => x.1 = y.1 ∧ x.2.Same y.2) t.scenarios u.scenarios := by
  refine List.rel_flatMap (forall₂_zipIdx h 0) ?_
  rintro ⟨f, i⟩ ⟨g, j⟩ ⟨hf, rfl⟩
  show List.Forall₂ _ (featureScenarios f i) (featureScenarios g i)
  unfold featureScenarios
  rw [List.forall₂_map_left_iff, List.forall₂_map_right_iff]
  refine (forall₂_zipIdx hf.scenarios.values 0).imp ?_
  rintro ⟨e, j⟩ ⟨d, k⟩ ⟨he, rfl⟩
  exact ⟨rfl, he⟩

/-- The failures of trees are the same where the features are. -/
theorem failedScenarios_congr
    (h : List.Forall₂ FeatureEntry.Same t.features.values u.features.values) :
    t.failedScenarios = u.failedScenarios :=
  map_filter_congr_of_forall₂ (fun _ _ hsame => hsame.2.isFailed_eq) (fun _ _ hsame => hsame.1)
    (forall₂_scenarios h)

/-- The tags that apply are read off the headers. -/
theorem tagsOf_congr (h : List.Forall₂ FeatureEntry.Same t.features.values u.features.values)
    (id : ScenarioId) {e d : ScenarioEntry} (hsame : e.Same d) : t.tagsOf id e = u.tagsOf id d := by
  have hheaders := map_eq_map_iff.mpr (h.imp fun _ _ hf => hf.header)
  have hheader : (t.feature? id.feature).map FeatureEntry.header =
      (u.feature? id.feature).map FeatureEntry.header := by
    rw [feature?, feature?, Family.get?_eq, Family.get?_eq, ← List.getElem?_map, hheaders,
      List.getElem?_map]
  have helim : ∀ f : Option FeatureEntry,
      f.elim {} FeatureEntry.header = (f.map FeatureEntry.header).getD {} := by
    intro f
    cases f <;> rfl
  rw [tagsOf, tagsOf, helim, helim, hheader, hsame.content]

/-- The groups by tag are the same where the features are. -/
theorem tagGroups_of_same
    (h : List.Forall₂ FeatureEntry.Same t.features.values u.features.values) :
    t.tagGroups = u.tagGroups := by
  refine foldlM_congr_of_forall₂ (fun gs x y hxy => ?_) (forall₂_scenarios h) []
  obtain ⟨id, e⟩ := x
  obtain ⟨_, d⟩ := y
  obtain ⟨rfl, hsame⟩ := hxy
  dsimp only
  rw [tagsOf_congr h id hsame]
  simp only [TagGroup.addTo_congr hsame]

/-- What is derived for a tallied tree is derived from its features. -/
theorem summary_eq_of_alike (ht : t.tally = .done t') (hu : u.tally = .done u')
    (h : t'.features.Alike FeatureEntry.Same u'.features) : t'.summary = u'.summary := by
  obtain ⟨hcounts, hfailed, htags, -⟩ := summary_of_tally ht
  obtain ⟨hcounts', hfailed', htags', -⟩ := summary_of_tally hu
  have hparts : t'.features.values.map (fun f => f.summary.counts) =
      u'.features.values.map fun f => f.summary.counts :=
    map_eq_map_iff.mpr (h.values.imp fun _ _ hsame => by rw [hsame.summary])
  rw [hparts] at hcounts
  rw [tagGroups_of_same h.values, htags'] at htags
  have hsum : t'.summary.counts = u'.summary.counts := hcounts.unique hcounts'
  have hfailures : t'.summary.failed = u'.summary.failed := by
    rw [hfailed, hfailed', failedScenarios_congr h.values]
  have hindex : t'.summary.index = u'.summary.index := by
    rw [index_of_tally ht, index_of_tally hu, h.labels]
  have hgroups : t'.summary.tags = u'.summary.tags := (Option.some.inj htags).symm
  calc t'.summary =
        ⟨t'.summary.counts, t'.summary.failed, t'.summary.index, t'.summary.tags⟩ := rfl
    _ = ⟨u'.summary.counts, u'.summary.failed, u'.summary.index, u'.summary.tags⟩ := by
        rw [hsum, hfailures, hindex, hgroups]
    _ = u'.summary := rfl

/-- What a tally leaves is determined by the primary state. -/
theorem same_of_tally (h : t.SamePrimary u) (ht : t.tally = .done t') (hu : u.tally = .done u') :
    t'.Same u' := by
  have hfeatures : t'.features.Alike FeatureEntry.Same u'.features :=
    alike_of_tally h ht hu (fun _ _ _ _ => FeatureEntry.same_of_tally)
      fun f g hsame => by rw [FeatureEntry.base, FeatureEntry.base, hsame.header]
  exact ⟨hfeatures, summary_eq_of_alike ht hu hfeatures⟩

/-- Trees with the same primary state are tallied to the same, or neither is. -/
theorem rel_tally (h : t.SamePrimary u) : Option.Rel Same t.tally.done? u.tally.done? := by
  have hexists : (∃ t', t.tally = .done t') ↔ ∃ u', u.tally = .done u' := by
    rw [exists_tally_iff, exists_tally_iff, durations_of_content h.content_eq]
  by_cases hdone : ∃ t', t.tally = .done t'
  · obtain ⟨t', ht⟩ := hdone
    obtain ⟨u', hu⟩ := hexists.mp ⟨t', ht⟩
    rw [ht, hu]
    exact .some (same_of_tally h ht hu)
  · rw [Attempt.done?_eq_none_iff.mpr hdone,
      Attempt.done?_eq_none_iff.mpr fun hu => hdone (hexists.mpr hu)]
    exact .none

end Tree

/-! ## Names in order -/

namespace FeatureEntry

variable {f f' : FeatureEntry}

/-- Scenarios that are named one by one request their names one by one. -/
theorem scenarios_foldl_nameScenario (f : FeatureEntry) (positions : List ℕ) :
    (positions.foldl nameScenario f).scenarios =
      positions.foldl (Family.request fun e => scenarioBase f.header e.content.header)
        f.scenarios := by
  induction positions generalizing f with
  | nil => rfl
  | cons i is ih => exact ih (f.nameScenario i)

/-- A tally names the scenarios as requests in the order of their positions do. -/
theorem labels_of_tally (h : f.tally = .done f') : f'.scenarios.labels =
    ((List.range f.scenarios.size).foldl nameScenario f).scenarios.labels := by
  obtain ⟨scenarios, counts, hscenarios, -, rfl⟩ := tally_eq_done_iff.mp h
  have halike := Family.alike_of_attempt (R := fun e d => d.content = e.content) hscenarios
    fun _ _ => ScenarioEntry.content_of_tally
  rw [scenarios_foldl_nameScenario, ← Family.labelAll_eq_foldl]
  exact (halike.labelAll fun e d hcontent => by rw [hcontent]).labels.symm

end FeatureEntry

namespace Tree

variable {t t' u : Tree}

/-- Features that are named one by one request their names one by one. -/
theorem features_foldl_nameFeature (t : Tree) (positions : List ℕ) :
    (positions.foldl nameFeature t).features =
      positions.foldl (Family.request FeatureEntry.base) t.features :=
  (List.foldl_hom features fun _ _ => rfl).symm

/-- A tally names the features as requests in the order of their positions do. -/
theorem labels_of_tally (h : t.tally = .done t') : t'.features.labels =
    ((List.range t.features.size).foldl nameFeature t).features.labels := by
  obtain ⟨features, counts, tags, hfeatures, -, -, rfl⟩ := tally_eq_done_iff.mp h
  have halike := Family.alike_of_attempt (R := fun f g => g.content = f.content) hfeatures
    fun _ _ => FeatureEntry.content_of_tally
  rw [features_foldl_nameFeature, ← Family.labelAll_eq_foldl]
  refine (halike.labelAll fun f g hcontent => ?_).labels.symm
  have hheader : g.header = f.header := congrArg Feature.header hcontent
  rw [FeatureEntry.base, FeatureEntry.base, hheader]

/-- Afterwards every feature and every scenario has a name. -/
theorem named_of_tally (h : t.tally = .done t') : (∀ l ∈ t'.features.labels, l.isSome) ∧
    ∀ f ∈ t'.features.values, ∀ l ∈ f.scenarios.labels, l.isSome := by
  obtain ⟨-, -, -, hfeatures⟩ := summary_of_tally h
  refine ⟨fun l hl => ?_, fun f hf => ?_⟩
  · obtain ⟨features, counts, tags, -, -, -, rfl⟩ := tally_eq_done_iff.mp h
    exact Family.isSome_of_mem_labels_labelAll hl
  · obtain ⟨f₀, hf₀⟩ := hfeatures f hf
    exact (FeatureEntry.index_of_tally hf₀).2

/-- What a completed tally makes of the primary state. Nothing that was recorded changes, and names
that were assigned stay. Features and the scenarios of each feature are named as requests in the
order of their positions name them, none is left without a name, and a second tally finds nothing to
do. -/
structure Completes (t t' : Tree) : Prop where
  content : t'.content = t.content
  kept : t.KeepsNames t'
  featureNames : ∀ i, t'.featureName? i =
    ((List.range t.features.size).foldl nameFeature t).featureName? i
  scenarioNames : ∀ i f, t.feature? i = some f → ∀ j, t'.scenarioName? ⟨i, j⟩ =
    ((List.range f.scenarios.size).foldl FeatureEntry.nameScenario f).scenarios.name? j
  features : ∀ i, (t'.feature? i).isSome → (t'.featureName? i).isSome
  scenarios : ∀ id, (t'.scenario? id).isSome → (t'.scenarioName? id).isSome
  again : t'.tally = .done t'

/-- What a completed tally makes of the tree. -/
theorem completes_of_tally (h : t.tally = .done t') : t.Completes t' where
  content := content_of_tally h
  kept :=
    have hgrows := grows_of_tally h
    ⟨fun _ _ hi => hgrows.featureName? hi, fun _ _ hid => hgrows.scenarioName? hid⟩
  featureNames i := by
    rw [featureName?, featureName?, Family.name?_eq, Family.name?_eq, labels_of_tally h]
  scenarioNames i f hf j := by
    obtain ⟨f', hf', htally⟩ := exists_feature?_of_tally h hf
    rw [scenarioName?, hf', Option.bind_some, Family.name?_eq, Family.name?_eq,
      FeatureEntry.labels_of_tally htally]
  features i hi := by
    obtain ⟨f, hf⟩ := Option.isSome_iff_exists.mp hi
    exact Option.isSome_iff_exists.mpr (Family.exists_name? (named_of_tally h).1 hf)
  scenarios id hid := by
    obtain ⟨e, he⟩ := Option.isSome_iff_exists.mp hid
    obtain ⟨f, hf, he⟩ := Option.bind_eq_some_iff.mp he
    have hmem : f ∈ t'.features.values := by
      rw [feature?, Family.get?_eq] at hf
      exact List.mem_of_getElem? hf
    rw [scenarioName?, hf, Option.bind_some]
    exact Option.isSome_iff_exists.mpr (Family.exists_name? ((named_of_tally h).2 f hmem) he)
  again := tally_of_done h

/-- A tally depends on the primary state alone: trees in which the same is recorded, the same names
are assigned and the pools answer alike are tallied to the same, whatever was derived before, or
neither is. It changes nothing that was recorded, wherever it stops. One that completes assigns the
missing names in the order of the positions, and then there is nothing left to do. -/
theorem tally_of_samePrimary (h : t.SamePrimary u) :
    Option.Rel Same t.tally.done? u.tally.done? ∧ t.tally.value.content = t.content ∧
      ∀ t', t.tally = .done t' → t.Completes t' :=
  ⟨rel_tally h, t.content_tally, fun _ => completes_of_tally⟩

/-- One tree was tallied while its scenario ran, which it takes for passed, before it failed; the
other was never tallied, and its features were named from the last to the first. -/
theorem tally_of_samePrimary_stale :
    let b := ((Builder.new {} ({} : Shelf)).processAll
      [.feature { name := "a" }, .feature { name := "b", tags := [{ name := "@x" }] },
        .scenario { name := "s" }, .step {}]).builder
    let late := (b.process (.result { outcome := .failed })).builder.tree
    let t := ((b.continuing b.tree.tally.value).process (.result { outcome := .failed })).builder.tree
    let u := ((late.nameFeature 1).nameFeature 0).nameScenario ⟨1, 0⟩
    t.Reachable ∧ u.Reachable ∧ t.SamePrimary u ∧
      t.summary.counts = { pass := 1 } ∧ u.summary.counts = {} ∧
        t.features.names.taken = ["b", "a"] ∧ u.features.names.taken = ["a", "b"] ∧
          Option.Rel Same t.tally.done? u.tally.done? ∧ t.Completes t.tally.value ∧
            t.tally.value.summary.counts = { fail := 1 } := by
  intro b late t u
  have hb : b.tree.Reachable := (reachable_new {} ({} : Shelf)).processAll _
  have ht : t.Reachable := .event b _ (.tally hb)
  have hu : u.Reachable :=
    .nameScenario ⟨1, 0⟩ (.nameFeature 0 (.nameFeature 1 (.event b _ hb)))
  have hsame : t.SamePrimary u := by decide +kernel
  have hdone : t.tally = .done t.tally.value := by decide +kernel
  obtain ⟨hrel, -, hcompletes⟩ := tally_of_samePrimary hsame
  refine ⟨ht, hu, hsame, ?_, ?_, ?_, ?_, hrel, hcompletes _ hdone, ?_⟩ <;> decide +kernel

end Tree

end ScenarioResults
