import ScenarioResults.Proofs.Tree.Completion
import ScenarioResults.Proofs.Tree.Edit
import ScenarioResults.Proofs.Tree.Merge

/-!
# What a merge leaves alone

A completed merge puts the features of the incoming tree behind those of the base and leaves the rest
alone: what is recorded, the names of the base and those of the incoming scenarios. The counters are
those of the two tallied trees, added up, and there is nothing left to tally (`framed_of_merge`).

## Shape of the proof

The merged tree has the features of both trees, each as its own tally leaves it
(`Tree.values_merge`), so contents and sums are read off the features. Names are known from what the
appending and the last tally let grow. The base need not be tallied for the merge; that it can be
follows from the total over both trees being in range (`exists_tally_of_merge`).
-/

namespace ScenarioResults

namespace Tree

variable {base incoming tallied added : Tree} {s : MergeSummary}

theorem length_scenarios (t : Tree) :
    t.scenarios.length = (t.content.flatMap Feature.scenarios).length := by
  have hmap := t.map_scenarios ScenarioEntry.content
  rw [← List.length_map, hmap, content, List.flatMap_map]
  rfl

/-- A tally neither adds nor drops features. -/
theorem size_of_tally (h : incoming.tally = .done added) :
    added.features.size = incoming.features.size := by
  rw [← length_content, content_of_tally h, length_content]

/-- Where a merge completes, the base alone can be tallied as well. -/
theorem exists_tally_of_merge (hs : (base.merge incoming).summary = some s) :
    ∃ tallied, base.tally = .done tallied := by
  have hfits := isSome_summary_merge_iff.mp (Option.isSome_iff_exists.mpr ⟨s, hs⟩)
  exact exists_tally (Nat.le_trans (Nat.le_add_right _ _) hfits)

/-- The counters of a merge are those of its two tallied trees, added up. -/
theorem counts_merge (hs : (base.merge incoming).summary = some s)
    (hbase : base.tally = .done tallied) (hin : incoming.tally = .done added) :
    tallied.summary.counts.add? added.summary.counts =
      some (base.merge incoming).tree.summary.counts := by
  obtain ⟨_, _, hmerged, -⟩ := summary_merge_eq_some_iff.mp hs
  have hvalues := values_merge hs hin
  rw [← values_of_tally hbase] at hvalues
  have hsum := (summary_of_tally hmerged).1
  rw [hvalues, List.map_append] at hsum
  exact (summary_of_tally hbase).1.add?_eq (summary_of_tally hin).1 hsum

/-- The scenarios of a tallied tree keep their names when it is merged into another one. -/
theorem scenarioName?_merge (hs : (base.merge incoming).summary = some s)
    (hin : incoming.tally = .done added) (id : ScenarioId) :
    (base.merge incoming).tree.scenarioName? ⟨base.features.size + id.feature, id.scenario⟩ =
      added.scenarioName? id := by
  have hfeature : (base.merge incoming).tree.feature? (base.features.size + id.feature) =
      added.feature? id.feature := by
    rw [feature?, feature?, Name.Family.get?_eq, Name.Family.get?_eq, values_merge hs hin,
      Name.Family.size_eq_length_values, List.getElem?_append_right (by simp)]
    simp
  rw [scenarioName?, scenarioName?, hfeature]

/-- Each feature has a name, and no two have the same. -/
structure NamedApart (t : Tree) : Prop where
  named : ∀ i < t.features.size, (t.featureName? i).isSome
  distinct : ∀ i j n, t.featureName? i = some n → t.featureName? j = some n → i = j

/-- In a tallied tree each feature has a name of its own. -/
theorem Tallied.namedApart {t : Tree} (h : t.Tallied) : t.NamedApart :=
  ⟨fun _ hi => Option.isSome_iff_exists.mpr (h.exists_featureName? hi),
    fun _ _ _ hi hj => h.sound.features.unique hi hj⟩

/-- What a completed merge promises, of a base that is `tallied` when it is tallied alone and an
incoming tree that is `added`. The features of the base stay where they were, with their names, and
those of the incoming tree follow; its scenarios have the names that its own tally gives them, and
all features have names, which differ. The counters of the incoming tree come on top of those of the
base, the summary tells what was appended, and nothing is left to tally. -/
structure Framed (base incoming tallied added merged : Tree) (s : MergeSummary) : Prop where
  content : merged.content = base.content ++ incoming.content
  names : base.KeepsNames merged
  scenarioNames : ∀ id, merged.scenarioName? ⟨base.features.size + id.feature, id.scenario⟩ =
    added.scenarioName? id
  featureNames : merged.NamedApart
  counts : tallied.summary.counts.add? s.counts = some merged.summary.counts
  added : s.counts = added.summary.counts
  features : s.features = incoming.features.size
  scenarios : s.scenarios = incoming.scenarios.length
  settled : merged.tally = .done merged

/-- A merge that completes appends the incoming tree and leaves the rest alone, whatever was tallied
or named before. -/
theorem framed_of_merge (hbase : base.Reachable) (hin : incoming.Reachable)
    (hs : (base.merge incoming).summary = some s) :
    ∃ tallied added, base.tally = .done tallied ∧ incoming.tally = .done added ∧
      Framed base incoming tallied added (base.merge incoming).tree s := by
  obtain ⟨tallied, htallied⟩ := exists_tally_of_merge hs
  obtain ⟨added, hadded, hmerged, rfl⟩ := summary_merge_eq_some_iff.mp hs
  have ht : (base.merge incoming).tree.Tallied := (Settled.merge hbase hin (by rw [hs]; rfl)).tallied
  refine ⟨tallied, added, htallied, hadded, ?_⟩
  exact
    { content := by rw [content_of_tally hmerged, content_append, content_of_tally hadded]
      names :=
        have hgrows := base.grows_merge hin.sound
        ⟨fun _ _ hi => hgrows.featureName? hi, fun _ _ hid => hgrows.scenarioName? hid⟩
      scenarioNames := scenarioName?_merge hs hadded
      featureNames := ht.namedApart
      counts := counts_merge hs htallied hadded
      added := rfl
      features := size_of_tally hadded
      scenarios := by
        dsimp only
        rw [length_scenarios, length_scenarios, content_of_tally hadded]
      settled := tally_of_done hmerged }

/-- Both trees are named in part and neither is tallied: the name assigned in the base stays, the
feature before it is named last, and the first scenario taken in is named after the second. -/
theorem framed_of_merge_partly_named :
    let built := fun es : List Event => ((Builder.new {} ({} : Shelf)).processAll es).builder.tree
    let base := (built [.feature { name := "a" }, .feature { name := "a" }]).nameFeature 1
    let incoming := (built [.feature { name := "a" }, .scenario { name := "s" },
      .scenario { name := "s" }, .feature { name := "a_2" }]).nameScenario ⟨0, 1⟩
    let merged := (base.merge incoming).tree
    base.Reachable ∧ incoming.Reachable ∧ ∃ s, (base.merge incoming).summary = some s ∧
      (∃ tallied added, base.tally = .done tallied ∧ incoming.tally = .done added ∧
        Framed base incoming tallied added merged s) ∧
      [0, 1, 2, 3].map merged.featureName? = [some "a_3", some "a", some "a_2", some "a_2_2"] ∧
      [0, 1].map (merged.scenarioName? ⟨2, ·⟩) = [some "s_2", some "s"] := by
  intro built base incoming merged
  have hbase : base.Reachable := .nameFeature 1 ((reachable_new {} ({} : Shelf)).processAll _)
  have hin : incoming.Reachable :=
    .nameScenario ⟨0, 1⟩ ((reachable_new {} ({} : Shelf)).processAll _)
  have hsome : (base.merge incoming).summary.isSome := by decide +kernel
  obtain ⟨s, hs⟩ := Option.isSome_iff_exists.mp hsome
  refine ⟨hbase, hin, s, hs, framed_of_merge hbase hin hs, ?_, ?_⟩ <;> decide +kernel

end Tree

end ScenarioResults
