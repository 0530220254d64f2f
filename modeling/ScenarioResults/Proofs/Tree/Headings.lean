import ScenarioResults.Proofs.Name.Alike
import ScenarioResults.Proofs.Tree.Edit
import ScenarioResults.Proofs.Tree.Lookup
import ScenarioResults.Proofs.Tree.Stages

/-!
# Names come from headings

A feature or scenario is named after what its header declares, and nothing else of it counts.
Trees that have the same headings and the same names so far keep the same names through a tally,
whatever it makes of their results (`Tree.SameHeadings.tally`). So a scenario of one tallied tree has
its counterpart at the same position of the other (`Tree.SameHeadings.namedAlike`). Trees without any
names have the same headings as soon as they declare the same (`Tree.sameHeadings_of_unnamed`).
-/

namespace ScenarioResults

open Name (Family)

/-- What the headers of a feature and its scenarios declare. -/
def Feature.headings (f : Feature) : String × List String :=
  (f.header.declared, f.scenarios.map fun s => s.header.declared)

namespace FeatureEntry

variable {f f' g g' : FeatureEntry}

/-- The headers of a scenario and its feature decide on the base of its name by what they declare. -/
theorem scenarioBase_congr {feature feature' scenario scenario' : Header}
    (hfeature : feature.declared = feature'.declared)
    (hscenario : scenario.declared = scenario'.declared) :
    scenarioBase feature scenario = scenarioBase feature' scenario' := by
  rw [scenarioBase, scenarioBase, hfeature, hscenario]

/-- Feature and scenarios declare the same, and the scenarios have the same names from pools that
answer alike. -/
structure SameHeadings (f g : FeatureEntry) : Prop where
  header : f.header.declared = g.header.declared
  scenarios : f.scenarios.Alike
    (fun e d => e.content.header.declared = d.content.header.declared) g.scenarios

/-- A tally keeps headings the same. -/
theorem SameHeadings.tally (h : f.SameHeadings g) (hf : f.tally = .done f')
    (hg : g.tally = .done g') : f'.SameHeadings g' := by
  have hheader : f'.header = f.header := congrArg Feature.header (content_of_tally hf)
  have hheader' : g'.header = g.header := congrArg Feature.header (content_of_tally hg)
  refine ⟨by rw [hheader, hheader', h.header], ?_⟩
  refine alike_of_tally h.scenarios hf hg (fun e d e' d' hsame he hd => ?_) fun e d hsame => ?_
  · rw [ScenarioEntry.content_of_tally he, ScenarioEntry.content_of_tally hd, hsame]
  · exact scenarioBase_congr h.header hsame

end FeatureEntry

namespace Tree

variable {t t' u u' : Tree}

/-- What the headers of all features and scenarios declare. -/
def headings (t : Tree) : List (String × List String) := t.content.map Feature.headings

/-- A new feature brings its heading and no scenarios. -/
theorem headings_addFeature (t : Tree) (uri : Option String) (header : Header) :
    (t.addFeature uri header).headings = t.headings ++ [(header.declared, [])] := by
  simp [headings, content_addFeature, Feature.headings]

/-- A new scenario brings its heading to its feature. -/
theorem headings_addScenario (t : Tree) (i : ℕ) (s : Scenario) :
    (t.addScenario i s).headings =
      t.headings.modify i fun f => (f.1, f.2 ++ [s.header.declared]) := by
  rw [headings, content_addScenario]
  exact map_modify (fun f => by simp [Feature.headings]) t.content i

/-- A change of a scenario that leaves its header alone. -/
theorem headings_modifyScenario {g : Scenario → Scenario} (hg : ∀ s, (g s).header = s.header)
    (t : Tree) (id : ScenarioId) : (t.modifyScenario id g).headings = t.headings := by
  have hdeclared : ∀ s, (g s).header.declared = s.header.declared := fun s => by rw [hg]
  have hfeature : ∀ f : Feature,
      ({ f with scenarios := f.scenarios.modify id.scenario g } : Feature).headings =
        f.headings := fun f =>
    congrArg (Prod.mk f.header.declared) (map_modify_eq_self hdeclared f.scenarios id.scenario)
  rw [headings, content_modifyScenario]
  exact map_modify_eq_self hfeature t.content id.feature

/-! ## Trees without names -/

/-- Neither a feature nor a scenario has a name, and none was handed out. -/
structure Unnamed (t : Tree) : Prop where
  features : t.features.Unnamed
  scenarios : ∀ f ∈ t.features.values, f.scenarios.Unnamed

theorem unnamed_empty : ({} : Tree).Unnamed :=
  ⟨Family.unnamed_empty, fun _ hf => nomatch hf⟩

/-- A new feature has no name. -/
theorem Unnamed.addFeature (h : t.Unnamed) (uri : Option String) (header : Header) :
    (t.addFeature uri header).Unnamed := by
  refine ⟨h.features.push _, fun f hf => ?_⟩
  rw [Tree.addFeature, Family.values_push, List.mem_append] at hf
  rcases hf with hf | hf
  · exact h.scenarios f hf
  · rw [List.mem_singleton.mp hf]
    exact Family.unnamed_empty

/-- A change of a feature that names none of its scenarios names nothing. -/
theorem Unnamed.modify (h : t.Unnamed) (i : ℕ) {g : FeatureEntry → FeatureEntry}
    (hg : ∀ f : FeatureEntry, f.scenarios.Unnamed → (g f).scenarios.Unnamed) :
    ({ t with features := t.features.modify i g } : Tree).Unnamed := by
  refine ⟨h.features.modify i g, fun f hf => ?_⟩
  rw [Family.values_modify] at hf
  have hstays := forall₂_modify
    (R := fun f f' : FeatureEntry => f.scenarios.Unnamed → f'.scenarios.Unnamed)
    (fun _ hf => hf) hg t.features.values i
  obtain ⟨f₀, hf₀, hkept⟩ := exists_mem_of_forall₂ hstays hf
  exact hkept (h.scenarios f₀ hf₀)

/-! ## The same headings and the same names -/

/-- Features and scenarios declare the same, and they have the same names from pools that answer
alike. -/
def SameHeadings (t u : Tree) : Prop := t.features.Alike FeatureEntry.SameHeadings u.features

/-- A tally keeps headings the same. -/
theorem SameHeadings.tally (h : t.SameHeadings u) (ht : t.tally = .done t')
    (hu : u.tally = .done u') : t'.SameHeadings u' :=
  alike_of_tally h ht hu (fun _ _ _ _ => FeatureEntry.SameHeadings.tally)
    fun f g hsame => by rw [FeatureEntry.base, FeatureEntry.base, hsame.header]

/-- Trees without names that declare the same have the same headings. -/
theorem sameHeadings_of_unnamed (ht : t.Unnamed) (hu : u.Unnamed) (h : t.headings = u.headings) :
    t.SameHeadings u := by
  refine ht.features.alike hu.features ?_
  have hvalues : List.Forall₂ (fun f g => f.content.headings = g.content.headings)
      t.features.values u.features.values := by
    rw [headings, headings, content, content, List.map_map, List.map_map] at h
    exact map_eq_map_iff.mp h
  obtain ⟨hlength, hheadings⟩ := List.forall₂_iff_zip.mp hvalues
  refine List.forall₂_iff_zip.mpr ⟨hlength, fun {f g} hmem => ?_⟩
  obtain ⟨hf, hg⟩ := List.of_mem_zip hmem
  obtain ⟨hheader, hscenarios⟩ := Prod.ext_iff.mp (hheadings hmem)
  simp only [Feature.headings, FeatureEntry.content, List.map_map] at hscenarios
  exact ⟨hheader,
    (ht.scenarios f hf).alike (hu.scenarios g hg) (map_eq_map_iff.mp hscenarios)⟩

/-- Features at the same position are called alike. -/
theorem SameHeadings.featureName?_eq (h : t.SameHeadings u) (i : ℕ) :
    t.featureName? i = u.featureName? i := Family.Alike.name?_eq h i

/-- At the same positions there are features with the same headings. -/
theorem SameHeadings.rel_feature? (h : t.SameHeadings u) (i : ℕ) :
    Option.Rel FeatureEntry.SameHeadings (t.feature? i) (u.feature? i) :=
  Family.Alike.rel_get? h i

/-- Scenarios at the same position are called alike. -/
theorem SameHeadings.scenarioName?_eq (h : t.SameHeadings u) (id : ScenarioId) :
    t.scenarioName? id = u.scenarioName? id := by
  have hfeature := h.rel_feature? id.feature
  unfold scenarioName?
  generalize t.feature? id.feature = f at hfeature ⊢
  generalize u.feature? id.feature = g at hfeature ⊢
  cases hfeature with
  | none => rfl
  | some hsame => exact hsame.scenarios.name?_eq id.scenario

/-- There are scenarios at the same positions. -/
theorem SameHeadings.isSome_scenario?_iff (h : t.SameHeadings u) (id : ScenarioId) :
    (t.scenario? id).isSome ↔ (u.scenario? id).isSome := by
  have hfeature := h.rel_feature? id.feature
  unfold scenario?
  generalize t.feature? id.feature = f at hfeature ⊢
  generalize u.feature? id.feature = g at hfeature ⊢
  cases hfeature with
  | none => rfl
  | some hsame =>
      have hsize := hsame.scenarios.size_eq
      rw [Option.bind_some, Option.bind_some, Family.isSome_get?_iff, Family.isSome_get?_iff, hsize]

/-- A scenario that is there in a tallied tree has a name, and so has its feature. -/
theorem Tallied.exists_names (h : t.Tallied) {id : ScenarioId} (hid : (t.scenario? id).isSome) :
    ∃ a b, t.featureName? id.feature = some a ∧ t.scenarioName? id = some b := by
  obtain ⟨p, hp⟩ := exists_path? h hid
  obtain ⟨a, b, ha, hb, -⟩ := path?_eq_some_iff.mp hp
  exact ⟨a, b, ha, hb⟩

/-- Only a scenario that is there has a name. -/
theorem isSome_scenario?_of_name {id : ScenarioId} {n : String} (h : t.scenarioName? id = some n) :
    (t.scenario? id).isSome := by
  obtain ⟨f, hf, hname⟩ := Option.bind_eq_some_iff.mp h
  rw [scenario?, hf, Option.bind_some, Family.isSome_get?_iff]
  exact Family.lt_size_of_name? hname

/-- In tallied trees with the same headings and names, counterparts stand at the same positions. -/
theorem SameHeadings.counterpart?_eq (h : t.SameHeadings u) (ht : t.Tallied) (hu : u.Tallied)
    (id : ScenarioId) : (t.counterpart? id u).1 = (u.scenario? id).map fun _ => id := by
  rw [Tree.counterpart?, namePath_eq_self ht]
  by_cases hid : (u.scenario? id).isSome
  · obtain ⟨a, b, ha, hb⟩ := hu.exists_names hid
    obtain ⟨e, he⟩ := Option.isSome_iff_exists.mp hid
    have hfound : u.scenarioByName? a b = some id := (scenarioByName?_eq_some_iff hu).mpr ⟨ha, hb⟩
    rw [counterpartByName?, h.featureName?_eq, h.scenarioName?_eq, ha, hb, he]
    exact hfound
  · have hnone : t.scenarioName? id = none := by
      rw [h.scenarioName?_eq]
      exact Option.eq_none_iff_forall_ne_some.mpr fun n hn => hid (isSome_scenario?_of_name hn)
    rw [Option.not_isSome_iff_eq_none.mp hid, counterpartByName?, hnone]
    cases t.featureName? id.feature <;> rfl

/-- Two trees name the same positions in the same way. They have features and scenarios at the same
positions, all of which have names, those at the same position have the same name, and the
counterpart of a scenario is the one at its position. -/
structure NamedAlike (t u : Tree) : Prop where
  features : ∀ i, (t.feature? i).isSome ↔ (u.feature? i).isSome
  scenarios : ∀ id, (t.scenario? id).isSome ↔ (u.scenario? id).isSome
  featureNamed : ∀ i, (t.feature? i).isSome → (t.featureName? i).isSome
  scenarioNamed : ∀ id, (t.scenario? id).isSome → (t.scenarioName? id).isSome
  featureName : ∀ i, t.featureName? i = u.featureName? i
  scenarioName : ∀ id, t.scenarioName? id = u.scenarioName? id
  counterpart : ∀ id, (t.counterpart? id u).1 = (u.scenario? id).map fun _ => id

/-- Tallied trees with the same headings and names name the same positions in the same way. -/
theorem SameHeadings.namedAlike (h : t.SameHeadings u) (ht : t.Tallied) (hu : u.Tallied) :
    t.NamedAlike u where
  features i := by
    rw [feature?, feature?, Family.isSome_get?_iff, Family.isSome_get?_iff, Family.Alike.size_eq h]
  scenarios := h.isSome_scenario?_iff
  featureNamed i hi := by
    obtain ⟨f, hf⟩ := Option.isSome_iff_exists.mp hi
    exact Option.isSome_iff_exists.mpr (Family.exists_name? ht.named hf)
  scenarioNamed id hid := by
    obtain ⟨_, b, -, hb⟩ := ht.exists_names hid
    exact Option.isSome_iff_exists.mpr ⟨b, hb⟩
  featureName := h.featureName?_eq
  scenarioName := h.scenarioName?_eq
  counterpart := h.counterpart?_eq ht hu

end Tree

end ScenarioResults
