import ScenarioResults.Proofs.Builder.Step
import ScenarioResults.Proofs.Tree.Growth
import ScenarioResults.Tree.History

/-!
# Reachable trees

A tree changes by the events of a builder that holds it, by requests for names, by tallies and by
merges. `Evolves t t'` closes these operations under repetition, in any order and whether or not an
event is accepted or a tally completes; a tree merged into another has itself evolved from the empty
one. A tree is reachable when the empty tree evolves to it.

Evolution is growth (`Evolves.grows`), so what the families of a tree promise holds of every
reachable tree: `names_of_reachable` states it in terms of the names alone.
-/

namespace ScenarioResults

open Name (IsSafe)

/-- An event lets the tree of the builder grow, accepted or not. -/
theorem Builder.grows_process {σ : Type} [AttachmentStore σ] (b : Builder σ) (e : Event) :
    b.tree.Grows (b.process e).builder.tree := by
  by_cases h : (b.process e).error = none
  · generalize hb' : (b.process e).builder = b'
    cases process_iff.mpr ⟨h, hb'⟩ with
    | documentStart => exact Tree.Grows.refl _
    | @feature header _ => exact b.tree.grows_addFeature b.opened.uri? header
    | background => exact Tree.Grows.refl _
    | @scenario header i _ _ _ _ => exact b.tree.grows_addScenario i (b.opened.adopted header)
    | step | binding => exact Tree.Grows.refl _
    | hold hyields _ =>
        rw [hyields.same.2]
        exact Tree.Grows.refl _
    | @record _ _ item id _ _ _ => exact b.tree.grows_modifyScenario id item.onScenario
    | write | outline | examples | endOfDocument => exact Tree.Grows.refl _
  · rw [(spares_process_of_refused h).tree]
    exact Tree.Grows.refl _

namespace Tree

/-- Asking for a counterpart is growth. -/
theorem grows_counterpart (t : Tree) (id : ScenarioId) (other : Tree) :
    t.Grows (t.counterpart? id other).2 := t.grows_namePath id

/-- Asking for a status is growth. -/
theorem grows_status (t : Tree) (id : ScenarioId) (previous : Option Tree) :
    t.Grows (t.status? id previous).2 := by
  unfold status?
  split
  · exact Grows.refl t
  · split
    · exact Grows.refl t
    · split
      · exact Grows.refl t
      · exact t.grows_namePath id

/-- Asking for an age is growth. -/
theorem grows_age (t : Tree) (id : ScenarioId) (run : ℕ) (history : List Run) :
    t.Grows (t.age id run history).2 := by
  -- only the branch that looks for counterparts names anything
  have hsince : t.Grows (t.failedSince? id run history).2 := by
    unfold failedSince?
    split
    · exact Grows.refl t
    · split
      · dsimp only
        split
        · exact Grows.refl t
        · exact t.grows_namePath id
      · exact Grows.refl t
  unfold age
  split <;> next h => simpa [h] using hsince

/-! ## Evolution -/

/-- Operations in any order make the second tree of the first. The builder that takes an event may
be in any state, as `continuing` may hand it the tree at any time. -/
inductive Evolves : Tree → Tree → Prop
  | refl (t : Tree) : Evolves t t
  | event {t u : Tree} {σ : Type} [AttachmentStore σ] (b : Builder σ) (e : Event)
      (h : Evolves t u) : Evolves t ((b.continuing u).process e).builder.tree
  | nameFeature {t u : Tree} (i : ℕ) (h : Evolves t u) : Evolves t (u.nameFeature i)
  | nameScenario {t u : Tree} (id : ScenarioId) (h : Evolves t u) : Evolves t (u.nameScenario id)
  | namePath {t u : Tree} (id : ScenarioId) (h : Evolves t u) : Evolves t (u.namePath id)
  | counterpart {t u : Tree} (id : ScenarioId) (other : Tree) (h : Evolves t u) :
      Evolves t (u.counterpart? id other).2
  | status {t u : Tree} (id : ScenarioId) (previous : Option Tree) (h : Evolves t u) :
      Evolves t (u.status? id previous).2
  | age {t u : Tree} (id : ScenarioId) (run : ℕ) (history : List Run) (h : Evolves t u) :
      Evolves t (u.age id run history).2
  | tally {t u : Tree} (h : Evolves t u) : Evolves t u.tally.value
  | merge {t base incoming : Tree} (h : Evolves t base) (hin : Evolves {} incoming) :
      Evolves t (base.merge incoming).tree

/-- Operations make the tree of the empty one. -/
def Reachable (t : Tree) : Prop := Evolves {} t

/-- Every assigned name of the first tree stands at the same place in the second. -/
def KeepsNames (t t' : Tree) : Prop :=
  (∀ i n, t.featureName? i = some n → t'.featureName? i = some n) ∧
    ∀ id n, t.scenarioName? id = some n → t'.scenarioName? id = some n

variable {t t' : Tree}

/-- Evolution is growth. -/
theorem Evolves.grows (h : Evolves t t') : t.Grows t' := by
  induction h with
  | refl t => exact Grows.refl t
  | event b e _ ih => exact ih.trans ((b.continuing _).grows_process e)
  | nameFeature i _ ih => exact ih.trans (grows_nameFeature _ i)
  | nameScenario id _ ih => exact ih.trans (grows_nameScenario _ id)
  | namePath id _ ih => exact ih.trans (grows_namePath _ id)
  | counterpart id other _ ih => exact ih.trans (grows_counterpart _ id other)
  | status id previous _ ih => exact ih.trans (grows_status _ id previous)
  | age id run history _ ih => exact ih.trans (grows_age _ id run history)
  | tally _ ih => exact ih.trans (grows_tally _)
  | merge _ _ ih ihin => exact ih.trans (grows_merge _ (ihin.sound sound_empty))

/-- Reachable trees are sound. -/
theorem Reachable.sound (h : t.Reachable) : t.Sound := Evolves.grows h |>.sound sound_empty

/-- A fresh builder has a reachable tree. -/
theorem reachable_new {σ : Type} (settings : Settings) (store : σ) :
    (Builder.new settings store).tree.Reachable := Evolves.refl {}

/-- A run of a builder keeps its tree reachable, accepted or not. -/
theorem Reachable.processAll {σ : Type} [AttachmentStore σ] {b : Builder σ}
    (h : b.tree.Reachable) (es : List Event) : (b.processAll es).builder.tree.Reachable := by
  induction es generalizing b with
  | nil => exact h
  | cons e es ih =>
      have hstep : (b.process e).builder.tree.Reachable := Evolves.event b e h
      rw [Builder.processAll]
      by_cases he : (b.process e).error = none
      · rw [Builder.builder_andThen he]
        exact ih hstep
      · rw [Builder.builder_andThen_of_refused he]
        exact hstep

/-- Evolution keeps every assigned name. -/
theorem Evolves.keepsNames (h : Evolves t t') : t.KeepsNames t' :=
  ⟨fun _ _ hi => h.grows.featureName? hi, fun _ _ hid => h.grows.scenarioName? hid⟩

/-- Where a tree is merged into another one, the names of its scenarios move along unchanged; its
features keep having a name, which may be another one. -/
theorem names_merge (base : Tree) {t tallied : Tree} (h : t.tally = .done tallied) :
    (∀ i n, t.featureName? i = some n →
        ((base.merge t).tree.featureName? (base.features.size + i)).isSome) ∧
      ∀ id n, t.scenarioName? id = some n →
        (base.merge t).tree.scenarioName? ⟨base.features.size + id.feature, id.scenario⟩ =
          some n := by
  have htally := grows_of_tally h
  have hmerge := base.grows_merge_of_done h
  refine ⟨fun i n hi => ?_, fun id n hid => ?_⟩
  · have hsome : ((base.append tallied).featureName? (base.features.size + i)).isSome := by
      rw [featureName?, append, Name.Family.isSome_name?_adopt]
      exact Option.isSome_iff_exists.mpr ⟨n, htally.featureName? hi⟩
    obtain ⟨m, hm⟩ := Option.isSome_iff_exists.mp hsome
    exact Option.isSome_iff_exists.mpr ⟨m, hmerge.featureName? hm⟩
  · apply hmerge.scenarioName?
    rw [scenarioName?_append_right]
    exact htally.scenarioName? hid

/-- In a reachable tree the names of the features are distinct, and so are those of the scenarios of
one feature; all of them are safe. Whatever happens to the tree, they stay as they are. Merged into
another tree, its features keep having names and its scenarios keep theirs, for ever after. -/
theorem names_of_reachable (h : t.Reachable) :
    (∀ i j n, t.featureName? i = some n → t.featureName? j = some n → i = j) ∧
    (∀ i j k n, t.scenarioName? ⟨i, j⟩ = some n → t.scenarioName? ⟨i, k⟩ = some n → j = k) ∧
    (∀ i n, t.featureName? i = some n → IsSafe n) ∧
    (∀ id n, t.scenarioName? id = some n → IsSafe n) ∧
    (∀ t', Evolves t t' → t.KeepsNames t') ∧
    ∀ base tallied t' : Tree, t.tally = .done tallied → Evolves (base.merge t).tree t' →
        (∀ i n, t.featureName? i = some n →
          (t'.featureName? (base.features.size + i)).isSome) ∧
        ∀ id n, t.scenarioName? id = some n →
          t'.scenarioName? ⟨base.features.size + id.feature, id.scenario⟩ = some n := by
  have hs := h.sound
  -- a scenario has a name in the family of its feature only
  have hnamed : ∀ id n, t.scenarioName? id = some n →
      ∃ f, t.feature? id.feature = some f ∧ f.scenarios.Named ∧
        f.scenarios.name? id.scenario = some n := by
    intro id n hid
    obtain ⟨f, hf, hname⟩ := Option.bind_eq_some_iff.mp hid
    exact ⟨f, hf, hs.scenarios _ f hf, hname⟩
  refine ⟨fun i j n hi hj => hs.features.unique hi hj, fun i j k n hj hk => ?_,
    fun i n hi => hs.features.safe hi, fun id n hid => ?_, fun t' h' => h'.keepsNames,
    fun base tallied t' htally h' => ?_⟩
  · obtain ⟨f, hf, hn, hj⟩ := hnamed _ n hj
    obtain ⟨g, hg, -, hk⟩ := hnamed _ n hk
    obtain rfl : f = g := Option.some.inj (hf.symm.trans hg)
    exact hn.unique hj hk
  · obtain ⟨f, -, hn, hname⟩ := hnamed id n hid
    exact hn.safe hname
  · obtain ⟨hfeatures, hscenarios⟩ := names_merge base htally
    refine ⟨fun i n hi => ?_, fun id n hid => h'.keepsNames.2 _ n (hscenarios id n hid)⟩
    obtain ⟨m, hm⟩ := Option.isSome_iff_exists.mp (hfeatures i n hi)
    exact Option.isSome_iff_exists.mpr ⟨m, h'.keepsNames.1 _ m hm⟩

/-- A literal `a_2` among features named `a`: the suffix passes over it, and merging the tree into
itself leaves the names of the base alone. -/
theorem names_of_reachable_literal_suffix :
    let t := ((Builder.new {} ({} : Shelf)).processAll
      [.feature { name := "a_2" }, .feature { name := "a" }, .feature { name := "a" }]).builder.tree
        |>.tally.value
    t.Reachable ∧ t.featureName? 2 = some "a_3" ∧ IsSafe "a_3" ∧ t.KeepsNames (t.merge t).tree := by
  intro t
  have h : t.Reachable := .tally ((reachable_new {} ({} : Shelf)).processAll _)
  have hname : t.featureName? 2 = some "a_3" := by decide +kernel
  obtain ⟨-, -, hsafe, -, hkeeps, -⟩ := names_of_reachable h
  exact ⟨h, hname, hsafe 2 "a_3" hname, hkeeps _ (.merge (.refl t) h)⟩

end Tree

end ScenarioResults
