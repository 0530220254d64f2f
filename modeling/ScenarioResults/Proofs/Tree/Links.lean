import ScenarioResults.Proofs.Tree.Edit
import ScenarioResults.Proofs.Tree.Lookup

/-!
# Links stay valid

A path that leads to the root, a feature or a scenario of a tallied tree is a link into a report.
Merging another tree into this one rebuilds every index from the data of both trees. `find_merge`
says what becomes of a link: it leads to the same node as before, except that a tag of the merged
tree comes before a feature of the same name, as it does in every lookup.

## Shape of the proof

A merge that stops halfway leaves an index either as it was or rebuilt, so each index is known only
up to this choice (`index_tally`). In both cases the names of the base are found where they were,
since they have not moved and no other member has them.
-/

namespace ScenarioResults

/-! ## Indices wherever a tally stops -/

/-- The index of a feature is as it was or lists the names of the scenarios. -/
theorem FeatureEntry.index_tally (f : FeatureEntry) :
    f.tally.value.summary.index = f.summary.index ∨
      f.tally.value.summary.index = f.tally.value.scenarios.labels := by
  let P := fun f' : FeatureEntry =>
    f'.summary.index = f.summary.index ∨ f'.summary.index = f'.scenarios.labels
  have hfirst : P ((f.scenarios.attempt ScenarioEntry.tally).map fun s =>
      { f with scenarios := s }).value := by
    rw [Attempt.value_map]
    exact Or.inl rfl
  unfold tally
  refine Attempt.value_andThen (P := P) hfirst fun f' hf' => ?_
  exact Attempt.value_require (P := P) hf' fun counts => Or.inr rfl

namespace Tree

variable {t base incoming : Tree}

/-- The index of a tree is as it was or lists the names of the features. -/
theorem index_tally (t : Tree) :
    t.tally.value.summary.index = t.summary.index ∨
      t.tally.value.summary.index = t.tally.value.features.labels := by
  let P := fun t' : Tree =>
    t'.summary.index = t.summary.index ∨ t'.summary.index = t'.features.labels
  have hfirst : P ((t.features.attempt FeatureEntry.tally).map fun fs =>
      { t with features := fs }).value := by
    rw [Attempt.value_map]
    exact Or.inl rfl
  unfold tally
  refine Attempt.value_andThen (P := P) hfirst fun t' ht' => ?_
  refine Attempt.value_require (P := P) ht' fun counts => ?_
  exact Attempt.value_require (P := P) (Or.inr rfl) fun tags => Or.inr rfl

/-- A feature is as it was or as its own tally left it. -/
theorem feature?_tally (t : Tree) (i : ℕ) :
    t.tally.value.feature? i = t.feature? i ∨
      t.tally.value.feature? i = (t.feature? i).map fun f => f.tally.value := by
  -- the invariant of the stages: the feature is there as it was, or tallied
  let P := fun t' : Tree => t'.feature? i = t.feature? i ∨
    t'.feature? i = (t.feature? i).map fun f => f.tally.value
  have hfirst : P ((t.features.attempt FeatureEntry.tally).map fun fs =>
      { t with features := fs }).value := by
    have hvalues := congrArg Attempt.value (t.features.values_attempt FeatureEntry.tally)
    rw [Attempt.value_map] at hvalues
    simp only [P, Attempt.value_map, feature?, Name.Family.get?_eq, hvalues]
    exact Attempt.each_value_getElem? FeatureEntry.tally t.features.values i
  have hlabel : ∀ (t' : Tree) (s : TreeSummary), P t' →
      P { features := t'.features.labelAll FeatureEntry.base, summary := s } := by
    intro t' s ht'
    simpa [P, feature?, Name.Family.get?_eq] using ht'
  unfold tally
  refine Attempt.value_andThen (P := P) hfirst fun t' ht' => ?_
  refine Attempt.value_require (P := P) ht' fun counts => ?_
  exact Attempt.value_require (P := P) (hlabel t' _ ht') fun tags => hlabel t' _ ht'

/-! ## Names are found where they were -/

/-- What a merge leaves is the base, or the base with the features appended as far as the last tally
came. -/
theorem tree_merge_cases (base incoming : Tree) :
    (base.merge incoming).tree = base ∨
      ∃ tallied, incoming.tally = .done tallied ∧
        (base.merge incoming).tree = (base.append tallied).tally.value := by
  unfold merge
  cases hfirst : incoming.tally with
  | halted _ => exact Or.inl rfl
  | done tallied =>
      refine Or.inr ⟨tallied, rfl, ?_⟩
      cases hsecond : (base.append tallied).tally <;> simp [hsecond]

/-- A merge leaves the features of a tallied base to be found by name. -/
theorem featureByName?_merge (hbase : base.Tallied) (hin : incoming.Sound) {n : String} {i : ℕ}
    (h : base.featureByName? n = some i) :
    (base.merge incoming).tree.featureByName? n = some i := by
  have hgrows := base.grows_merge hin
  have hname := (featureByName?_eq_some_iff hbase).mp h
  have hfeature : ((base.merge incoming).tree.feature? i).isSome := by
    obtain ⟨-, hi⟩ := Option.filter_eq_some_iff.mp h
    exact hgrows.isSome_feature? hi
  have hindex : (base.merge incoming).tree.summary.index.idxOf? (some n) = some i := by
    have hold : base.summary.index.idxOf? (some n) = some i := (Option.filter_eq_some_iff.mp h).1
    rcases tree_merge_cases base incoming with hsame | ⟨tallied, -, hmerged⟩
    · rw [hsame]
      exact hold
    · rcases (base.append tallied).index_tally with hindex | hindex
      · rw [hmerged, hindex]
        exact hold
      · rw [hmerged, hindex, ← hmerged,
          Name.Family.idxOf?_labels (hgrows.sound hbase.sound).features]
        exact hgrows.featureName? hname
  exact Option.filter_eq_some_iff.mpr ⟨hindex, hfeature⟩

/-- A feature of the base is as it was or as its own tally left it. -/
theorem feature?_merge (base incoming : Tree) {i : ℕ} {f : FeatureEntry}
    (hf : base.feature? i = some f) :
    (base.merge incoming).tree.feature? i = some f ∨
      (base.merge incoming).tree.feature? i = some f.tally.value := by
  rcases tree_merge_cases base incoming with hsame | ⟨tallied, -, hmerged⟩
  · rw [hsame]
    exact Or.inl hf
  · have happend : (base.append tallied).feature? i = some f := by
      have hi := (isSome_feature? base i).mp (by rw [hf]; rfl)
      rw [length_content] at hi
      rw [feature?_append, if_pos hi, hf]
    rw [hmerged]
    rcases (base.append tallied).feature?_tally i with h | h
    · exact Or.inl (h.trans happend)
    · rw [h, happend]
      exact Or.inr rfl

/-- It leaves the scenarios of the base to be found by name, too. -/
theorem scenarioByName?_merge (hbase : base.Tallied) (hin : incoming.Sound) {a b : String}
    {id : ScenarioId} (h : base.scenarioByName? a b = some id) :
    (base.merge incoming).tree.scenarioByName? a b = some id := by
  obtain ⟨hfeature, hscenario⟩ := (scenarioByName?_eq_some_iff hbase).mp h
  obtain ⟨f, hf, hname⟩ := Option.bind_eq_some_iff.mp hscenario
  have hi := featureByName?_merge hbase hin ((featureByName?_eq_some_iff hbase).mpr hfeature)
  -- whatever the merge made of the feature, its index finds the scenario where it was
  have hfound : ∀ f' : FeatureEntry, f.scenarios.Grows f'.scenarios →
      (f'.summary.index = f.summary.index ∨ f'.summary.index = f'.scenarios.labels) →
      f'.position? b = some id.scenario ∧ (f'.scenarios.get? id.scenario).isSome := by
    intro f' hgrows hindex
    have hnamed := hbase.sound.scenarios _ f hf
    have hname' := hgrows.kept hname
    constructor
    · rw [FeatureEntry.position?]
      rcases hindex with hindex | hindex
      · rw [hindex, (hbase.features _ f hf).1, Name.Family.idxOf?_labels hnamed]
        exact hname
      · rw [hindex, Name.Family.idxOf?_labels (hgrows.named hnamed)]
        exact hname'
    · have hlt := Name.Family.lt_size_of_name? hname'
      rw [Name.Family.size_eq_length_values] at hlt
      rw [Name.Family.get?_eq, List.getElem?_eq_getElem hlt]
      rfl
  have hmerged : ∃ f', (base.merge incoming).tree.feature? id.feature = some f' ∧
      f'.position? b = some id.scenario ∧ (f'.scenarios.get? id.scenario).isSome := by
    rcases feature?_merge base incoming hf with h' | h'
    · exact ⟨f, h', hfound f (Name.Family.Grows.refl _) (Or.inl rfl)⟩
    · exact ⟨f.tally.value, h', hfound f.tally.value f.grows_tally f.index_tally⟩
  obtain ⟨f', hf', hposition, hget⟩ := hmerged
  obtain ⟨e, he⟩ := Option.isSome_iff_exists.mp hget
  simp [scenarioByName?, hi, hf', hposition, he]

/-! ## What becomes of a link -/

/-- A tag stands before the feature of this name: the name starts with `@` and is the name or the
safe name of a tag. -/
def Shadowed (t : Tree) (name : String) : Prop :=
  name.toList.head? = some '@' ∧ ∃ g ∈ t.summary.tags, g.name = name ∨ Name.safe g.name = name

/-- A segment leads to the feature of this name where no tag stands before it. -/
theorem segmentTarget?_of_not_shadowed {a : String} (h : ¬ t.Shadowed a) {i : ℕ}
    (hi : t.featureByName? a = some i) : t.segmentTarget? a = some (.feature i) := by
  unfold segmentTarget?
  by_cases hat : a.toList.head? = some '@'
  · have hnone : t.tagGroupBySafeName? a = none := by
      rw [tagGroupBySafeName?_eq_none_iff]
      intro g hg
      exact ⟨fun hname => h ⟨hat, g, hg, Or.inl hname⟩, fun hname => h ⟨hat, g, hg, Or.inr hname⟩⟩
    simp [hnone, hi]
  · simp [hat, hi]

/-- A segment leads to a tag where one stands before the feature. -/
theorem segmentTarget?_of_shadowed {a : String} (h : t.Shadowed a) :
    ∃ g ∈ t.summary.tags, (g.name = a ∨ Name.safe g.name = a) ∧
      t.segmentTarget? a = some (.tag g.name) := by
  obtain ⟨hat, g, hg, hname⟩ := h
  unfold segmentTarget?
  rw [if_pos hat]
  cases hgroup : t.tagGroupBySafeName? a with
  | none =>
      have hnone := tagGroupBySafeName?_eq_none_iff.mp hgroup g hg
      exact absurd hname (by simp [hnone])
  | some g' =>
      obtain ⟨hmem, hname'⟩ := mem_of_tagGroupBySafeName? hgroup
      exact ⟨g', hmem, hname', rfl⟩

/-- After a merge a path to the root or to a scenario of a tallied base leads there still. A path to a
feature does so unless a tag of the merged tree stands before the feature's name; then it leads to
such a tag. This holds whether the merge completes or not. -/
theorem find_merge (hbase : base.Settled) (hin : incoming.Reachable) (path : String) :
    let merged := (base.merge incoming).tree
    (base.find path = some .root → merged.find path = some .root) ∧
      (∀ id, base.find path = some (.scenario id) → merged.find path = some (.scenario id)) ∧
      ∀ i, base.find path = some (.feature i) → ∃ n, base.featureName? i = some n ∧
        (¬ merged.Shadowed n → merged.find path = some (.feature i)) ∧
        (merged.Shadowed n → ∃ g ∈ merged.summary.tags, (g.name = n ∨ Name.safe g.name = n) ∧
          merged.find path = some (.tag g.name)) := by
  intro merged
  have ht := hbase.tallied
  have hs := hin.sound
  refine ⟨fun h => ?_, fun id h => ?_, fun i h => ?_⟩
  · -- which paths lead to the root does not depend on the tree
    have hroot : base.Leads (trimmed path) .root := find_eq_root_iff.mp h
    exact find_eq_root_iff.mpr hroot
  · obtain ⟨a, b, ha, hb, hpath, hid⟩ := exists_pair_of_find h
    rw [find_of_pair merged ha hb hpath, scenarioByName?_merge ht hs hid]
    rfl
  · obtain ⟨a, hne, ha, hpath, hsegment⟩ :=
      exists_segment_of_find h (fun h => by cases h) (fun _ h => by cases h)
    have hname := ((segmentTarget?_eq_feature_iff ht).mp hsegment).1
    -- the merge keeps the index entry; a tag can only come before it
    have hi := featureByName?_merge ht hs ((featureByName?_eq_some_iff ht).mpr hname)
    rw [find_of_segment merged hne ha hpath]
    exact ⟨a, hname, fun hfree => segmentTarget?_of_not_shadowed hfree hi,
      fun hshadow => segmentTarget?_of_shadowed hshadow⟩

/-- Another tag leaves a feature called `@x` and its scenarios where they are. -/
theorem find_merge_other_tag :
    let base := ((Builder.new {} ({} : Shelf)).processAll
      [.feature { name := "@x" }, .scenario { name := "s" }]).builder.tree.tally.value
    let incoming := ((Builder.new {} ({} : Shelf)).processAll
      [.feature { name := "@x", tags := [{ name := "@y" }] }, .scenario { name := "s" }]).builder.tree
    base.Settled ∧ incoming.Reachable ∧
      base.find "@x" = some (.feature 0) ∧ (base.merge incoming).tree.find "@x" = some (.feature 0) ∧
      base.find "cucumber/@x/s" = some (.scenario ⟨0, 0⟩) ∧
      (base.merge incoming).tree.find "cucumber/@x/s" = some (.scenario ⟨0, 0⟩) := by
  intro base incoming
  have hbase : base.Settled :=
    .tally ((reachable_new {} ({} : Shelf)).processAll _) (by decide +kernel)
  have hin : incoming.Reachable := (reachable_new {} ({} : Shelf)).processAll _
  have hfeature : base.find "@x" = some (.feature 0) := by decide +kernel
  have hscenario : base.find "cucumber/@x/s" = some (.scenario ⟨0, 0⟩) := by decide +kernel
  obtain ⟨n, hn, hfree, -⟩ := (find_merge hbase hin "@x").2.2 0 hfeature
  obtain rfl : "@x" = n := by
    have hname : base.featureName? 0 = some "@x" := by decide +kernel
    exact Option.some.inj (hname.symm.trans hn)
  refine ⟨hbase, hin, hfeature, hfree ?_, hscenario,
    (find_merge hbase hin "cucumber/@x/s").2.1 ⟨0, 0⟩ hscenario⟩
  rintro ⟨-, hshadow⟩
  revert hshadow
  decide +kernel

/-- Not every link is kept: a tag `@x` that a merge brings stands before the feature called `@x`. -/
theorem feature_link_lost : ¬ ∀ (base incoming : Tree) (path : String) (target : Target),
    base.Settled → incoming.Reachable → (∀ name, target ≠ .tag name) →
      base.find path = some target → (base.merge incoming).tree.find path = some target := by
  intro hall
  let base := ((Builder.new {} ({} : Shelf)).processAll
    [.feature { name := "@x" }, .scenario { name := "s" }]).builder.tree.tally.value
  let incoming := ((Builder.new {} ({} : Shelf)).processAll
    [.feature { name := "b", tags := [{ name := "@x" }] }, .scenario { name := "t" }]).builder.tree
  have hbase : base.Settled :=
    .tally ((reachable_new {} ({} : Shelf)).processAll _) (by decide +kernel)
  have hin : incoming.Reachable := (reachable_new {} ({} : Shelf)).processAll _
  have hkept := hall base incoming "@x" (.feature 0) hbase hin (fun _ h => by cases h)
    (by decide +kernel)
  revert hkept
  decide +kernel

end Tree

end ScenarioResults
