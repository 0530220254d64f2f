import ScenarioResults.Proofs.Tree.Growth

/-!
# What the edits of a builder do to a tree

A builder edits its tree in three ways: it appends a feature, appends a scenario to a feature, or
changes what is recorded for a scenario. Each edit is described by what it does to the content, and
by the positions that exist afterwards.
-/

namespace ScenarioResults.Tree

theorem length_content (t : Tree) : t.content.length = t.features.size := by
  simp [content, Name.Family.size_eq_length_values]

/-- The content at a position is that of the feature there. -/
theorem content_getElem? (t : Tree) (i : ℕ) :
    t.content[i]? = (t.feature? i).map FeatureEntry.content := by
  rw [content, List.getElem?_map, feature?, Name.Family.get?_eq]

/-- A new feature comes last, without scenarios. -/
theorem content_addFeature (t : Tree) (uri : Option String) (header : Header) :
    (t.addFeature uri header).content = t.content ++ [({ uri, header } : Feature)] := by
  simp [content, addFeature, FeatureEntry.content, Name.Family.values, Name.Family.push]

/-- A change of one feature that shows in its content as the change `g`. -/
theorem content_modify (t : Tree) (i : ℕ) {f : FeatureEntry → FeatureEntry} {g : Feature → Feature}
    (h : ∀ e : FeatureEntry, (f e).content = g e.content) :
    ({ t with features := t.features.modify i f } : Tree).content = t.content.modify i g := by
  rw [content, Name.Family.values_modify]
  exact map_modify h t.features.values i

/-- A new scenario comes last in its feature. -/
theorem content_addScenario (t : Tree) (i : ℕ) (s : Scenario) :
    (t.addScenario i s).content =
      t.content.modify i fun f => { f with scenarios := f.scenarios ++ [s] } :=
  t.content_modify i fun e => by simp [FeatureEntry.content]

/-- Of the content, one scenario changes. -/
theorem content_modifyScenario (t : Tree) (id : ScenarioId) (g : Scenario → Scenario) :
    (t.modifyScenario id g).content =
      t.content.modify id.feature fun f =>
        { f with scenarios := f.scenarios.modify id.scenario g } := by
  refine t.content_modify id.feature fun e => ?_
  simp only [FeatureEntry.content, Name.Family.values_modify, Feature.mk.injEq, true_and]
  have hcontent : ∀ s : ScenarioEntry,
      ({ s with content := g s.content } : ScenarioEntry).content = g s.content := fun _ => rfl
  exact map_modify hcontent e.scenarios.values id.scenario

/-! ## Positions -/

/-- A scenario stands at a position when the content has one there. -/
theorem isSome_scenario? (t : Tree) (id : ScenarioId) :
    (t.scenario? id).isSome ↔
      ∃ f s, t.content[id.feature]? = some f ∧ f.scenarios[id.scenario]? = some s := by
  rw [scenario?, content_getElem?]
  cases t.feature? id.feature with
  | none => simp
  | some f => simp [FeatureEntry.content, Name.Family.get?_eq, Option.isSome_iff_exists]

/-- A feature stands at each position of the content. -/
theorem isSome_feature? (t : Tree) (i : ℕ) : (t.feature? i).isSome ↔ i < t.content.length := by
  rw [length_content, Name.Family.size_eq_length_values, feature?, Name.Family.get?_eq]
  simp

end ScenarioResults.Tree
