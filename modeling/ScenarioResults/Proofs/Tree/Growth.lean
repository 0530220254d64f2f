import Mathlib.Data.List.Triplewise
import ScenarioResults.Proofs.Name.Growth
import ScenarioResults.Tree.Merge

/-!
# Trees keep the names they assign

`Tree.Sound` asks for the invariant `Named` of the features of a tree and of the scenarios of each
feature. `Tree.Grows` is growth of all these families at once: features stay in place, their
scenarios grow, and a feature that is new brings sound scenarios. Every operation on a tree is such
growth, whether it completes or stops halfway.
-/

namespace ScenarioResults

open Name (Family IsSafe)

/-! ## The bases of names are safe -/

/-- The base of a feature's name is safe. -/
theorem FeatureEntry.isSafe_base (f : FeatureEntry) : IsSafe f.base :=
  Name.isSafe_safe f.header.declared

/-- What is left of a safe name once the base of the feature is cut off is safe too. -/
theorem FeatureEntry.isSafe_scenarioBase (feature scenario : Header) :
    IsSafe (scenarioBase feature scenario) := by
  have hown := Name.isSafe_safe scenario.declared
  unfold scenarioBase
  dsimp only
  split
  -- what is left holds characters of a safe name alone, and it is not empty
  · next c rest h =>
      have hlist := List.append_eq_of_isPrefixOf?_eq_some h
      refine ⟨fun hempty => ?_, fun d hd => hown.chars d ?_⟩
      · have := congrArg String.toList hempty
        simp at this
      · rw [← hlist]
        exact List.mem_append_right _ (by simpa using hd)
  · exact hown

/-! ## Features -/

namespace FeatureEntry

/-- Naming one scenario lets their family grow. -/
theorem grows_nameScenario (f : FeatureEntry) (i : ℕ) :
    f.scenarios.Grows (f.nameScenario i).scenarios := by
  have hbase : ∀ e : ScenarioEntry, IsSafe (scenarioBase f.header e.content.header) :=
    fun e => isSafe_scenarioBase f.header e.content.header
  exact Family.grows_request hbase f.scenarios i

/-- Naming all scenarios lets their family grow. -/
theorem grows_nameScenarios (f : FeatureEntry) : f.scenarios.Grows f.nameScenarios.scenarios := by
  have hbase : ∀ e : ScenarioEntry, IsSafe (scenarioBase f.header e.content.header) :=
    fun e => isSafe_scenarioBase f.header e.content.header
  exact Family.grows_labelAll hbase f.scenarios

/-- A tally keeps the names of the scenarios wherever it stops. -/
theorem grows_tally (f : FeatureEntry) : f.scenarios.Grows f.tally.value.scenarios := by
  have hfirst : f.scenarios.Grows ((f.scenarios.attempt ScenarioEntry.tally).map fun s =>
      { f with scenarios := s }).value.scenarios := by
    rw [Attempt.value_map]
    exact Family.grows_attempt f.scenarios ScenarioEntry.tally
  unfold tally
  refine Attempt.value_andThen (P := fun f' : FeatureEntry => f.scenarios.Grows f'.scenarios) hfirst
    fun f' hf' => ?_
  refine Attempt.value_require (P := fun f' : FeatureEntry => f.scenarios.Grows f'.scenarios) hf'
    fun counts => ?_
  exact hf'.trans (grows_nameScenarios f')

end FeatureEntry

/-! ## Trees -/

namespace Tree

variable {t t' t'' : Tree}

/-- The invariant of the features and of the scenarios of each feature. -/
structure Sound (t : Tree) : Prop where
  features : t.features.Named
  scenarios : ∀ i f, t.feature? i = some f → f.scenarios.Named

/-- What may become of the feature at a position: its scenarios grow, and one that is new brings
sound scenarios. -/
def Follows : Option FeatureEntry → Option FeatureEntry → Prop
  | none, none => True
  | none, some f' => f'.scenarios.Named
  | some f, some f' => f.scenarios.Grows f'.scenarios
  | some _, none => False

/-- From one tree to the next every family of names grows. -/
structure Grows (t t' : Tree) : Prop where
  features : t.features.Grows t'.features
  follows : ∀ i, Follows (t.feature? i) (t'.feature? i)

theorem sound_empty : ({} : Tree).Sound :=
  ⟨Family.named_empty, fun i f h => by simp [feature?, Family.get?] at h⟩

theorem Follows.refl (f : Option FeatureEntry) : Follows f f := by
  cases f with
  | none => trivial
  | some f => exact Family.Grows.refl f.scenarios

/-- What follows a successor follows. -/
theorem Follows.trans {f f' f'' : Option FeatureEntry} (h : Follows f f') (h' : Follows f' f'') :
    Follows f f'' := by
  cases f <;> cases f' <;> cases f'' <;> simp only [Follows] at h h' ⊢
  · exact h'
  · exact h'.named h
  · exact h.trans h'

theorem Grows.refl (t : Tree) : t.Grows t := ⟨Family.Grows.refl _, fun _ => Follows.refl _⟩

theorem Grows.trans (h : t.Grows t') (h' : t'.Grows t'') : t.Grows t'' :=
  ⟨h.features.trans h'.features, fun i => (h.follows i).trans (h'.follows i)⟩

/-- Growth keeps a tree sound. -/
theorem Grows.sound (h : t.Grows t') (hs : t.Sound) : t'.Sound := by
  refine ⟨h.features.named hs.features, fun i f' hf' => ?_⟩
  have hi := h.follows i
  rw [hf'] at hi
  cases hf : t.feature? i with
  | none =>
      rw [hf] at hi
      exact hi
  | some f =>
      rw [hf] at hi
      exact hi.named (hs.scenarios i f hf)

/-- Growth keeps the name of a feature. -/
theorem Grows.featureName? (h : t.Grows t') {i : ℕ} {n : String} (hi : t.featureName? i = some n) :
    t'.featureName? i = some n := h.features.kept hi

/-- Growth keeps the name of a scenario. -/
theorem Grows.scenarioName? (h : t.Grows t') {id : ScenarioId} {n : String}
    (hid : t.scenarioName? id = some n) : t'.scenarioName? id = some n := by
  obtain ⟨f, hf, hname⟩ := Option.bind_eq_some_iff.mp hid
  have hi := h.follows id.feature
  rw [hf] at hi
  cases hf' : t'.feature? id.feature with
  | none =>
      rw [hf'] at hi
      exact hi.elim
  | some f' =>
      rw [hf'] at hi
      exact Option.bind_eq_some_iff.mpr ⟨f', hf', hi.kept hname⟩

/-- A feature stays where it is when the tree grows. -/
theorem Grows.isSome_feature? (h : t.Grows t') {i : ℕ} (hi : (t.feature? i).isSome) :
    (t'.feature? i).isSome := by
  have hfollows := h.follows i
  cases hf : t.feature? i with
  | none => simp [hf] at hi
  | some f =>
      cases hf' : t'.feature? i with
      | none =>
          rw [hf, hf'] at hfollows
          exact hfollows.elim
      | some f' => rfl

/-- Growth of the features that leaves every feature itself alone. -/
theorem Grows.of_values_eq (h : t.features.Grows t'.features)
    (hvalues : t'.features.values = t.features.values) : t.Grows t' := by
  refine ⟨h, fun i => ?_⟩
  rw [feature?, feature?, Family.get?_eq, Family.get?_eq, hvalues]
  exact Follows.refl _

/-! ### Growing -/

/-- Adding a feature is growth. -/
theorem grows_addFeature (t : Tree) (uri : Option String) (header : Header) :
    t.Grows (t.addFeature uri header) := by
  refine ⟨Family.grows_push t.features _, fun i => ?_⟩
  rw [feature?, feature?, Family.get?_eq, Family.get?_eq, addFeature, Family.values_push]
  rw [List.getElem?_append]
  split
  · exact Follows.refl _
  · next h =>
      -- beyond the old features there is the new one at most, still without scenarios
      rw [List.getElem?_eq_none (Nat.le_of_not_lt h)]
      cases i - t.features.values.length with
      | zero => exact Family.named_empty
      | succ k => trivial

/-- A change to one feature that lets its scenarios grow. -/
theorem grows_modify (t : Tree) (i : ℕ) {g : FeatureEntry → FeatureEntry}
    (hg : ∀ f : FeatureEntry, f.scenarios.Grows (g f).scenarios) :
    t.Grows { t with features := t.features.modify i g } := by
  refine ⟨Family.grows_modify t.features i g, fun j => ?_⟩
  rw [feature?, feature?, Family.get?_eq, Family.get?_eq, Family.values_modify,
    List.getElem?_modify]
  cases t.features.values[j]? with
  | none => trivial
  | some f =>
      by_cases hij : i = j
      · simpa [hij, Follows] using hg f
      · simpa [hij] using Follows.refl (some f)

/-- Adding a scenario is growth. -/
theorem grows_addScenario (t : Tree) (i : ℕ) (s : Scenario) : t.Grows (t.addScenario i s) :=
  t.grows_modify i fun f : FeatureEntry => f.scenarios.grows_push { content := s }

/-- Recording something for a scenario is growth. -/
theorem grows_modifyScenario (t : Tree) (id : ScenarioId) (g : Scenario → Scenario) :
    t.Grows (t.modifyScenario id g) :=
  t.grows_modify id.feature fun f : FeatureEntry =>
    f.scenarios.grows_modify id.scenario fun e => { e with content := g e.content }

/-! ### Names on request -/

/-- Naming a feature is growth. -/
theorem grows_nameFeature (t : Tree) (i : ℕ) : t.Grows (t.nameFeature i) :=
  Grows.of_values_eq (Family.grows_request FeatureEntry.isSafe_base t.features i)
    (Family.values_request _ _ _)

/-- Naming a scenario is growth. -/
theorem grows_nameScenario (t : Tree) (id : ScenarioId) : t.Grows (t.nameScenario id) :=
  t.grows_modify id.feature fun f => f.grows_nameScenario id.scenario

/-- Naming the path to a scenario is growth. -/
theorem grows_namePath (t : Tree) (id : ScenarioId) : t.Grows (t.namePath id) :=
  (t.grows_nameFeature id.feature).trans ((t.nameFeature id.feature).grows_nameScenario id)

/-! ### Tallies and merges -/

/-- Tallying the features lets each of them grow. -/
theorem grows_tallyFeatures (t : Tree) :
    t.Grows ((t.features.attempt FeatureEntry.tally).map fun fs =>
      { t with features := fs }).value := by
  rw [Attempt.value_map]
  refine ⟨Family.grows_attempt t.features FeatureEntry.tally, fun i => ?_⟩
  have hvalues : (t.features.attempt FeatureEntry.tally).value.values =
      (Attempt.each FeatureEntry.tally t.features.values).value := by
    rw [← Family.values_attempt, Attempt.value_map]
  rw [feature?, feature?, Family.get?_eq, Family.get?_eq, hvalues]
  -- a feature behind the one that stopped is not tallied at all
  rcases Attempt.each_value_getElem? FeatureEntry.tally t.features.values i with h | h
  · rw [h]
    exact Follows.refl _
  · rw [h]
    cases t.features.values[i]? with
    | none => trivial
    | some f => exact f.grows_tally

/-- A tally keeps every assigned name wherever it stops. -/
theorem grows_tally (t : Tree) : t.Grows t.tally.value := by
  have hlabel : ∀ t : Tree, t.Grows { t with features := t.features.labelAll FeatureEntry.base } :=
    fun t => Grows.of_values_eq (Family.grows_labelAll FeatureEntry.isSafe_base t.features)
      (Family.values_labelAll _ _)
  unfold tally
  refine Attempt.value_andThen (P := t.Grows) t.grows_tallyFeatures fun t' ht' => ?_
  refine Attempt.value_require (P := t.Grows) ht' fun counts => ?_
  -- the summary is no part of growth, so both ends of the last step are the labelled tree
  have hend : ∀ s : TreeSummary,
      t.Grows { features := t'.features.labelAll FeatureEntry.base, summary := s } :=
    fun s => ht'.trans ⟨(hlabel t').features, (hlabel t').follows⟩
  exact Attempt.value_require (P := t.Grows) (hend _) fun tags => hend _

/-- A completed tally keeps every assigned name. -/
theorem grows_of_tally {t t' : Tree} (h : t.tally = .done t') : t.Grows t' := by
  have hgrows := t.grows_tally
  rwa [h] at hgrows

/-- The features of the base come first, then those that are appended. -/
theorem feature?_append (base incoming : Tree) (i : ℕ) :
    (base.append incoming).feature? i =
      if i < base.features.size then base.feature? i
      else incoming.feature? (i - base.features.size) := by
  rw [feature?, feature?, feature?, append, Family.get?_eq, Family.values_adopt,
    List.getElem?_append, Family.size_eq_length_values, Family.get?_eq, Family.get?_eq]

/-- Appended features stand behind those of the base. -/
theorem feature?_append_right (base incoming : Tree) (i : ℕ) :
    (base.append incoming).feature? (base.features.size + i) = incoming.feature? i := by
  rw [feature?_append, if_neg (Nat.not_lt.mpr (Nat.le_add_right _ _)), Nat.add_sub_cancel_left]

/-- A sound tree is taken in without harm. -/
theorem grows_append (base : Tree) {incoming : Tree} (h : incoming.Sound) :
    base.Grows (base.append incoming) := by
  refine ⟨Family.grows_adopt base.features h.features, fun i => ?_⟩
  rw [feature?_append]
  split
  · exact Follows.refl _
  · next hi =>
      have hnone : base.feature? i = none := by
        rw [feature?, Family.get?_eq, List.getElem?_eq_none_iff,
          ← Family.size_eq_length_values]
        omega
      rw [hnone]
      cases hf : incoming.feature? (i - base.features.size) with
      | none => trivial
      | some f => exact h.scenarios _ f hf

/-- The scenarios of a feature taken in keep their names. -/
theorem scenarioName?_append_right (base incoming : Tree) (id : ScenarioId) :
    (base.append incoming).scenarioName? ⟨base.features.size + id.feature, id.scenario⟩ =
      incoming.scenarioName? id := by
  rw [scenarioName?, scenarioName?, feature?_append_right]

/-- Once the incoming tree is tallied, its features are appended, whether the merge completes or
not. -/
theorem grows_merge_of_done (base : Tree) {incoming tallied : Tree}
    (h : incoming.tally = .done tallied) :
    (base.append tallied).Grows (base.merge incoming).tree := by
  have htally := (base.append tallied).grows_tally
  unfold merge
  rw [h]
  dsimp only
  cases hout : (base.append tallied).tally <;> rw [hout] at htally <;> exact htally

/-- A merge keeps every assigned name of the base, whether it completes or not. -/
theorem grows_merge (base : Tree) {incoming : Tree} (h : incoming.Sound) :
    base.Grows (base.merge incoming).tree := by
  cases hin : incoming.tally with
  | halted left =>
      unfold merge
      rw [hin]
      exact Grows.refl base
  | done tallied =>
      exact (base.grows_append ((grows_of_tally hin).sound h)).trans (base.grows_merge_of_done hin)

end Tree

end ScenarioResults
