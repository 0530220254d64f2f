import ScenarioResults.Proofs.Tree.Completion
import ScenarioResults.Proofs.Tree.Edit

/-!
# The index of tags

The tags that apply to a scenario are its own, those of its feature and, when it declares none of its
own, `untagged`. After a tally the index of tags is the one that this defines, and nothing else: each
tag that applies to some scenario has one group, and the members of the group are exactly the
scenarios to which the tag applies, each once, however often and wherever the tag is declared
(`Tree.tagIndexed_of_tally`).

## Shape of the proof

`Tagged` reads off what is recorded which tags apply. Against it the groups of a tally are compared
by position: a group collects a part of the tree's scenarios (`groups_tagGroups`), a scenario of the
tree is the one found at its position (`mem_scenarios_iff`), and so what is said of the collected
scenarios can be said of the positions in the group (`exact_of_balances`).
-/

namespace ScenarioResults

open Duration (totalNanos longest)

/-- The tag applies to the scenario recorded at a position: the scenario or its feature declares it,
or the scenario declares no tag and the tag is that of such scenarios. -/
def Tagged (features : List Feature) (tag : String) (id : ScenarioId) : Prop :=
  ∃ f s, features[id.feature]? = some f ∧ f.scenarios[id.scenario]? = some s ∧
    ((∃ d ∈ s.header.tags, d.name = tag) ∨ (∃ d ∈ f.header.tags, d.name = tag) ∨
      s.header.tags = [] ∧ tag = untagged)

/-- The tags that apply are those of the scenario, those of its feature and, without own ones,
`untagged`. -/
theorem mem_effectiveTags_iff {feature scenario : Header} {tag : String} :
    tag ∈ effectiveTags feature scenario ↔ (∃ d ∈ scenario.tags, d.name = tag) ∨
      (∃ d ∈ feature.tags, d.name = tag) ∨ scenario.tags = [] ∧ tag = untagged := by
  rw [effectiveTags, List.mem_append, List.mem_append, List.mem_map, List.mem_map]
  by_cases hnone : scenario.tags = []
  · simp [hnone, or_comm]
  · simp [hnone]

namespace Tree

variable {t t' : Tree}

/-- The scenarios of a tree are those found at the positions. -/
theorem mem_scenarios_iff {x : ScenarioId × ScenarioEntry} :
    x ∈ t.scenarios ↔ t.scenario? x.1 = some x.2 := by
  obtain ⟨⟨i, j⟩, e⟩ := x
  simp only [scenarios, featureScenarios, List.mem_flatMap, List.mem_map, Prod.exists, Prod.mk.injEq,
    ScenarioId.mk.injEq, List.mem_zipIdx_iff_getElem?, scenario?, feature?, Name.Family.get?_eq,
    Option.bind_eq_some_iff]
  constructor
  · rintro ⟨f, _, hf, e, _, he, ⟨rfl, rfl⟩, rfl⟩
    exact ⟨f, hf, he⟩
  · rintro ⟨f, hf, he⟩
    exact ⟨f, i, hf, e, j, he, ⟨rfl, rfl⟩, rfl⟩

/-- The tags that a tally takes for a scenario are those that apply to it. -/
theorem tagged_iff {tag : String} {id : ScenarioId} :
    Tagged t.content tag id ↔ ∃ e, t.scenario? id = some e ∧ tag ∈ t.tagsOf id e := by
  simp only [Tagged, ← mem_effectiveTags_iff, content_getElem?, Option.map_eq_some_iff]
  constructor
  · rintro ⟨_, s, ⟨f, hf, rfl⟩, hs, htag⟩
    rw [FeatureEntry.content, List.getElem?_map, ← Name.Family.get?_eq] at hs
    obtain ⟨e, he, rfl⟩ := Option.map_eq_some_iff.mp hs
    refine ⟨e, by rw [scenario?, hf, Option.bind_some, he], ?_⟩
    rw [tagsOf, hf]
    exact htag
  · rintro ⟨e, he, htag⟩
    obtain ⟨f, hf, he⟩ := Option.bind_eq_some_iff.mp he
    refine ⟨f.content, e.content, ⟨f, hf, rfl⟩, ?_, ?_⟩
    · rw [FeatureEntry.content, List.getElem?_map, ← Name.Family.get?_eq, he]
      rfl
    · rwa [tagsOf, hf] at htag

end Tree

/-- The group is exactly what its tag defines in the tree. The members are the scenarios to which
the tag applies, in tree order and hence each once; the counters are the sum of theirs and count
each member once; the failures are the members that failed, in the same order. -/
structure TagGroup.Exact (g : TagGroup) (t : Tree) : Prop where
  members : ∀ id, id ∈ g.members ↔ Tagged t.content g.name id
  order : g.members.Pairwise ScenarioId.Before
  counts : g.counts.IsSum ((g.members.filterMap t.scenario?).map ScenarioEntry.counts)
  total : g.counts.total = g.members.length
  failed : g.failed = g.members.filter fun id => (t.scenario? id).any ScenarioEntry.isFailed

namespace Tree

variable {t t' : Tree}

/-- The index of tags is exactly the one that the recorded tags define: there is a group for each
tag that applies to some scenario and for no other, each is what its tag defines, and a name leads
to the group of that name. -/
structure TagIndexed (t : Tree) : Prop where
  names : ∀ name, (t.tagGroup? name).isSome ↔ ∃ id, Tagged t.content name id
  groups : ∀ g ∈ t.summary.tags, g.Exact t
  lookup : ∀ name g, t.tagGroup? name = some g ↔ g ∈ t.summary.tags ∧ g.name = name

/-- The scenarios at the positions of some of the tree's scenarios are these. -/
theorem filterMap_scenario? {xs : List (ScenarioId × ScenarioEntry)} (h : xs ⊆ t.scenarios) :
    (xs.map Prod.fst).filterMap t.scenario? = xs.map Prod.snd := by
  rw [List.filterMap_map, ← List.filterMap_eq_map]
  exact List.filterMap_congr fun x hx => mem_scenarios_iff.mp (h hx)

/-- A group that collects the scenarios to which its tag applies is what its tag defines. -/
theorem exact_of_balances {g : TagGroup}
    (hmembers : g.members =
      (t.scenarios.filter fun x => g.name ∈ t.tagsOf x.1 x.2).map Prod.fst)
    (h : Balances (t.scenarios.filter fun x => g.name ∈ t.tagsOf x.1 x.2) g.counts g.failed) :
    g.Exact t := by
  -- which scenarios are collected matters for the members only
  generalize hxs : (t.scenarios.filter fun x => g.name ∈ t.tagsOf x.1 x.2) = xs at hmembers h
  have hsub : xs.Sublist t.scenarios := hxs ▸ List.filter_sublist
  refine ⟨fun id => ?_, ?_, ?_, ?_, ?_⟩
  · simp [hmembers, ← hxs, tagged_iff, mem_scenarios_iff]
  · rw [hmembers, List.pairwise_map]
    exact t.pairwise_before_scenarios.sublist hsub
  · rw [hmembers, filterMap_scenario? hsub.subset, List.map_map]
    exact h.counts
  · rw [hmembers, List.length_map, h.total]
  · rw [h.failed, hmembers, List.filter_map]
    refine congrArg (List.map Prod.fst) (List.filter_congr fun x hx => ?_)
    rw [Function.comp_apply, mem_scenarios_iff.mp (hsub.subset hx), Option.any_some]

/-- A tallied tree has exactly the index that its tags define. -/
theorem tagIndexed_of_done (h : t.tally = .done t') : t'.TagIndexed := by
  obtain ⟨-, -, htags, -⟩ := summary_of_tally h
  have hgroups := groups_tagGroups htags
  have hlookup : ∀ name g, t'.tagGroup? name = some g ↔ g ∈ t'.summary.tags ∧ g.name = name :=
    fun _ _ => tagGroup?_eq_some_iff hgroups.ascending
  refine ⟨fun name => ?_, fun g hg => ?_, hlookup⟩
  · simp only [Option.isSome_iff_exists, hlookup]
    rw [hgroups.named name, ne_eq, List.eq_nil_iff_forall_not_mem]
    simp [tagged_iff, mem_scenarios_iff]
  · exact exact_of_balances (hgroups.collects g hg).members (balances_tag_of_tally h hg)

/-- Nothing that was derived for the tree as a whole is read by a tally. -/
theorem tally_with_summary (h : t.tally = .done t') (s : TreeSummary) :
    ({ t with summary := s } : Tree).tally = .done t' := by
  obtain ⟨features, counts, tags, hstages⟩ := tally_eq_done_iff.mp h
  exact tally_eq_done_iff.mpr ⟨features, counts, tags, hstages⟩

/-- A tree is tallied exactly when the total of its times is in range, and then its index of tags is
exactly the one that the recorded tags define. Of an earlier index nothing survives: had the tree
held any other, it would be the same tree now. -/
theorem tagIndexed_of_tally (t : Tree) :
    ((∃ t', t.tally = .done t') ↔ totalNanos t.durations ≤ longest) ∧
      ∀ t', t.tally = .done t' → t'.content = t.content ∧ t'.TagIndexed ∧
        ∀ s : TreeSummary, ({ t with summary := s } : Tree).tally = .done t' :=
  ⟨exists_tally_iff, fun _ h => ⟨content_of_tally h, tagIndexed_of_done h, tally_with_summary h⟩⟩

/-- A tag is declared twice by the feature and twice by a scenario, and another scenario declares the
tag of those that declare none. The index held a tag that no scenario has. -/
theorem tagIndexed_of_tally_repeated :
    let t : Tree :=
      { ((Builder.new {} ({} : Shelf)).processAll
          [.feature { name := "f", tags := [{ name := "@x" }, { name := "@x" }] },
            .scenario { name := "r", tags := [{ name := "@x" }, { name := "@x" }] },
            .scenario { name := "s" },
            .scenario { name := "u", tags := [{ name := "@_UNTAGGED_" }] }, .step {},
            .result { outcome := .failed }]).builder.tree with
        summary := { tags := [{ name := "@old", members := [⟨0, 0⟩] }] } }
    t.tally = .done t.tally.value ∧ t.tally.value.TagIndexed ∧
      (t.tally.value.summary.tags.map fun g => (g.name, g.members, g.failed)) =
        [("@_UNTAGGED_", [⟨0, 1⟩, ⟨0, 2⟩], [⟨0, 2⟩]),
          ("@x", [⟨0, 0⟩, ⟨0, 1⟩, ⟨0, 2⟩], [⟨0, 2⟩])] := by
  intro t
  have hdone : t.tally = .done t.tally.value := by decide +kernel
  obtain ⟨-, hindexed⟩ := tagIndexed_of_tally t
  exact ⟨hdone, (hindexed _ hdone).2.1, by decide +kernel⟩

end Tree

end ScenarioResults
