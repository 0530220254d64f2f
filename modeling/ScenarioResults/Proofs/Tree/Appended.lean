import ScenarioResults.Proofs.Tree.Frame

/-!
# Appending before or after a tally

Features can be put behind those of a settled tree as they are and tallied there, or they can be
tallied first, as a tree of their own, and merged. Both ways tell the same results
(`Tree.agrees_append_merge`). They may call the new features differently: a name claimed twice in one
tree is claimed otherwise in the other. Where the new features have no names yet and their bases
differ, both ways come to the same tree (`Tree.eq_merge_of_nodup`).

An edit of the appended tree is the same edit further behind, which lets a builder be followed in
both trees.
-/

namespace ScenarioResults

/-- A tally leaves the base of a feature's name. -/
theorem FeatureEntry.base_tally (f : FeatureEntry) : f.tally.value.base = f.base :=
  congrArg (fun c : Feature => Name.safe c.header.declared) f.content_tally

namespace Tree

/-! ## Edits behind another tree -/

section Edits

variable (t u : Tree)

theorem size_append : (t.append u).features.size = t.features.size + u.features.size := by
  simp [append, Name.Family.size_eq_length_values]

theorem append_empty : t.append {} = t := by
  rw [append, Name.Family.adopt_empty]

/-- A feature is added behind both trees. -/
theorem append_addFeature (uri : Option String) (header : Header) :
    t.append (u.addFeature uri header) = (t.append u).addFeature uri header := by
  simp [append, addFeature, Name.Family.adopt_push]

/-- A scenario is added to the same feature, further behind. -/
theorem append_addScenario (i : ℕ) (s : Scenario) :
    t.append (u.addScenario i s) = (t.append u).addScenario (t.features.size + i) s := by
  simp [append, addScenario, Name.Family.adopt_modify]

/-- The same scenario is changed, further behind. -/
theorem append_modifyScenario (id : ScenarioId) (g : Scenario → Scenario) :
    t.append (u.modifyScenario id g) =
      (t.append u).modifyScenario ⟨t.features.size + id.feature, id.scenario⟩ g := by
  simp [append, modifyScenario, Name.Family.adopt_modify]

/-- Appended scenarios stand further behind. -/
theorem scenario?_append_right (id : ScenarioId) :
    (t.append u).scenario? ⟨t.features.size + id.feature, id.scenario⟩ = u.scenario? id := by
  rw [scenario?, scenario?, feature?_append_right]

end Edits

/-! ## Trees without names -/

variable {t u r added : Tree} {s : MergeSummary}

/-- No feature has a name, and none was handed out. -/
structure Nameless (t : Tree) : Prop where
  labels : ∀ l ∈ t.features.labels, l = none
  taken : t.features.names.taken = []

theorem nameless_empty : ({} : Tree).Nameless := ⟨(fun _ hl => nomatch hl), rfl⟩

/-- A new feature has no name. -/
theorem Nameless.addFeature (h : t.Nameless) (uri : Option String) (header : Header) :
    (t.addFeature uri header).Nameless := by
  refine ⟨fun l hl => ?_, h.taken⟩
  rw [Tree.addFeature, Name.Family.labels_push, List.mem_append] at hl
  exact hl.elim (h.labels l) List.eq_of_mem_singleton

/-- A change of a feature gives it no name. -/
theorem Nameless.modify (h : t.Nameless) (i : ℕ) (g : FeatureEntry → FeatureEntry) :
    ({ t with features := t.features.modify i g } : Tree).Nameless :=
  ⟨fun l hl => h.labels l (t.features.labels_modify i g ▸ hl), h.taken⟩

/-! ## Appending and merging compared -/

/-- Two trees that start with the same features tell the same results: the same features in the same
order with their counters and failures, the same names of scenarios, the names of the features in
front, and the same counters, failures and groups by tag of the whole. -/
structure Agrees (front a b : Tree) : Prop where
  values : a.features.values = b.features.values
  content : a.content = b.content
  scenarioNames : ∀ id, a.scenarioName? id = b.scenarioName? id
  names : ∀ i < front.features.size,
    a.featureName? i = front.featureName? i ∧ b.featureName? i = front.featureName? i
  counts : a.summary.counts = b.summary.counts
  failed : a.summary.failed = b.summary.failed
  tags : a.summary.tags = b.summary.tags

/-- Trees with the same features give their scenarios the same names. -/
theorem scenarioName?_congr {a b : Tree} (h : a.features.values = b.features.values)
    (id : ScenarioId) : a.scenarioName? id = b.scenarioName? id := by
  rw [scenarioName?, scenarioName?, feature?, feature?, Name.Family.get?_eq, Name.Family.get?_eq, h]

/-- Features can be tallied behind a tree exactly when they can be tallied alone and merged. -/
theorem exists_tally_append_iff : (∃ r, (t.append u).tally = .done r) ↔
    ∃ added, u.tally = .done added ∧ (t.merge added).summary.isSome := by
  rw [exists_tally_iff, durations_append, Duration.totalNanos_append]
  constructor
  · intro h
    obtain ⟨added, hadded⟩ := exists_tally (Nat.le_trans (Nat.le_add_left _ _) h)
    refine ⟨added, hadded, isSome_summary_merge_iff.mpr ?_⟩
    rwa [durations_of_tally hadded]
  · rintro ⟨added, hadded, hmerge⟩
    rw [← durations_of_tally hadded]
    exact isSome_summary_merge_iff.mp hmerge

/-- Features may be appended before their tally or merged after it. -/
theorem agrees_append_merge (ht : t.Settled) (hu : u.Sound) (hr : (t.append u).tally = .done r)
    (hadded : u.tally = .done added) (hs : (t.merge added).summary = some s) :
    t.Agrees r (t.merge added).tree := by
  obtain ⟨_, _, hmerged, -⟩ := summary_merge_eq_some_iff.mp hs
  -- the values do not depend on the names, so tallying before or after adoption gives the same
  have hvalues : r.features.values = (t.merge added).tree.features.values := by
    rw [values_merge hs (tally_of_done hadded), values_of_tally hr, append,
      Name.Family.values_adopt, List.map_append, values_of_tally hadded]
  obtain ⟨hcounts, hfailed, htags⟩ := summary_of_values_eq hr hmerged hvalues
  have hsound := (grows_of_tally hadded).sound hu
  have hresumed := (t.grows_append hu).trans (grows_of_tally hr)
  refine
    { values := hvalues
      content := congrArg (List.map FeatureEntry.content) hvalues
      scenarioNames := scenarioName?_congr hvalues
      names := fun i hi => ?_
      counts := hcounts
      failed := hfailed
      tags := htags }
  obtain ⟨n, hn⟩ := ht.tallied.exists_featureName? hi
  rw [hn]
  exact ⟨hresumed.featureName? hn, (t.grows_merge hsound).featureName? hn⟩

/-- Where the features appended have no names and their bases differ, it makes no difference at
all. -/
theorem eq_merge_of_nodup (ht : t.Settled) (hu : u.Nameless)
    (hnodup : (u.features.values.map FeatureEntry.base).Nodup)
    (hr : (t.append u).tally = .done r) (hadded : u.tally = .done added)
    (hs : (t.merge added).summary = some s) : r = (t.merge added).tree := by
  obtain ⟨added', hadded', hmerged, -⟩ := summary_merge_eq_some_iff.mp hs
  obtain rfl : added = added' := Attempt.done.inj ((tally_of_done hadded).symm.trans hadded')
  refine eq_of_features_eq hr hmerged ?_
  obtain ⟨own, _, _, hown, -⟩ := tally_eq_done_iff.mp hadded
  obtain ⟨-, hlabels, hnames⟩ := Name.Family.attempt_eq_done_iff.mp hown
  have hbases : own.values.map FeatureEntry.base = u.features.values.map FeatureEntry.base :=
    Name.Family.map_values_of_attempt FeatureEntry.base_tally hown
  -- tallied, the features have no names yet and the same bases, so they may be named before
  have hnamed : t.features.adopt (own.labelAll FeatureEntry.base) =
      (t.features.adopt own).labelAll FeatureEntry.base :=
    Name.Family.adopt_labelAll ht.tallied.named (fun l hl => hu.labels l (hlabels ▸ hl))
      (hnames ▸ hu.taken) (hbases ▸ hnodup)
  have hfront := attempt_features_of_done ht.tally_eq
  have hagain := attempt_features_of_done hadded
  calc r.features
      = (t.features.adopt own).labelAll FeatureEntry.base :=
        features_of_tally hr (Name.Family.attempt_adopt hfront hown)
    _ = ((t.features.adopt own).labelAll FeatureEntry.base).labelAll FeatureEntry.base :=
        (Name.Family.labelAll_labelAll _).symm
    _ = (t.features.adopt added.features).labelAll FeatureEntry.base := by
        rw [features_of_tally hadded hown, hnamed]
    _ = (t.merge added).tree.features :=
        (features_of_tally hmerged (Name.Family.attempt_adopt hfront hagain)).symm

end Tree

end ScenarioResults
