import ScenarioResults.Proofs.Tree.Growth

/-!
# What a tally leaves behind

A tally keeps the recorded content wherever it stops (`Tree.content_tally`). One that completes
leaves every member named, the indices equal to the names, and the groups by tag in ascending order
(`Tree.tallied_of_done`).
-/

namespace ScenarioResults

open Name (Family)

/-! ## The content stays -/

/-- A tally leaves the content of a scenario, wherever it stops. -/
theorem ScenarioEntry.content_tally (e : ScenarioEntry) : e.tally.value.content = e.content := by
  have hbackground : e.tallyBackground.value.content = e.content := by
    unfold tallyBackground
    split
    · rfl
    · rw [Attempt.value_map]
  unfold tally
  refine Attempt.value_andThen (P := fun e' : ScenarioEntry => e'.content = e.content) hbackground
    fun e' he' => ?_
  rw [Attempt.value_map]
  exact he'

/-- Naming scenarios leaves the content of their feature. -/
theorem FeatureEntry.content_nameScenarios (f : FeatureEntry) :
    f.nameScenarios.content = f.content := by
  simp [content, nameScenarios]

/-- A tally leaves the content of a feature, wherever it stops. -/
theorem FeatureEntry.content_tally (f : FeatureEntry) : f.tally.value.content = f.content := by
  have hscenarios : ((f.scenarios.attempt ScenarioEntry.tally).map fun s =>
      { f with scenarios := s }).value.content = f.content := by
    have hvalues := congrArg Attempt.value (f.scenarios.values_attempt ScenarioEntry.tally)
    rw [Attempt.value_map] at hvalues
    rw [Attempt.value_map, content, content, hvalues,
      Attempt.map_value_each ScenarioEntry.content_tally]
  -- the content is an invariant of the stages, whether they complete or not
  unfold tally
  refine Attempt.value_andThen (P := fun f' : FeatureEntry => f'.content = f.content) hscenarios
    fun f' hf' => ?_
  refine Attempt.value_require (P := fun f' : FeatureEntry => f'.content = f.content) hf'
    fun counts => ?_
  exact f'.content_nameScenarios.trans hf'

namespace Tree

/-- A tally keeps what was recorded, wherever it stops. -/
theorem content_tally (t : Tree) : t.tally.value.content = t.content := by
  have hfeatures : ((t.features.attempt FeatureEntry.tally).map fun fs =>
      { t with features := fs }).value.content = t.content := by
    have hvalues := congrArg Attempt.value (t.features.values_attempt FeatureEntry.tally)
    rw [Attempt.value_map] at hvalues
    rw [Attempt.value_map, content, content, hvalues,
      Attempt.map_value_each FeatureEntry.content_tally]
  unfold tally
  refine Attempt.value_andThen (P := fun t' : Tree => t'.content = t.content) hfeatures
    fun t' ht' => ?_
  refine Attempt.value_require (P := fun t' : Tree => t'.content = t.content) ht' fun counts => ?_
  have hend : ∀ s : TreeSummary,
      ({ features := t'.features.labelAll FeatureEntry.base, summary := s } : Tree).content =
        t.content := fun s => by rw [← ht', content, content, Family.values_labelAll]
  exact Attempt.value_require (P := fun t' : Tree => t'.content = t.content) (hend _)
    fun tags => hend _

end Tree

/-! ## Groups by tag -/

namespace TagGroup

variable {id : ScenarioId} {e : ScenarioEntry} {name : String}

/-- A group keeps its name. -/
theorem name_add {g g' : TagGroup} (h : g.add id e = some g') : g'.name = g.name := by
  unfold add at h
  split at h
  · rw [← Option.some.inj h]
  · obtain ⟨counts, -, rfl⟩ := Option.map_eq_some_iff.mp h
    rfl

/-- Ascending by name, so that no name occurs twice. -/
def Ascending (gs : List TagGroup) : Prop := gs.Pairwise fun g g' => g.name < g'.name

/-- Joining a group brings at most the group's own name into the list. -/
theorem name_of_mem_addTo {gs gs' : List TagGroup} (h : addTo id e name gs = some gs')
    {g' : TagGroup} (hg' : g' ∈ gs') : g'.name = name ∨ ∃ g ∈ gs, g'.name = g.name := by
  induction gs generalizing gs' with
  | nil =>
      obtain ⟨g, hadd, rfl⟩ := Option.map_eq_some_iff.mp h
      obtain rfl := List.mem_singleton.mp hg'
      exact Or.inl (name_add hadd)
  | cons g gs ih =>
      unfold addTo at h
      split at h
      · obtain ⟨g₁, hadd, rfl⟩ := Option.map_eq_some_iff.mp h
        rcases List.mem_cons.mp hg' with rfl | hg'
        · exact Or.inr ⟨g, List.mem_cons_self, name_add hadd⟩
        · exact Or.inr ⟨g', List.mem_cons_of_mem _ hg', rfl⟩
      · split at h
        · obtain ⟨g₁, hadd, rfl⟩ := Option.map_eq_some_iff.mp h
          rcases List.mem_cons.mp hg' with rfl | hg'
          · exact Or.inl (name_add hadd)
          · exact Or.inr ⟨g', hg', rfl⟩
        · obtain ⟨gs₁, hrest, rfl⟩ := Option.map_eq_some_iff.mp h
          rcases List.mem_cons.mp hg' with rfl | hg'
          · exact Or.inr ⟨g', List.mem_cons_self, rfl⟩
          · rcases ih hrest hg' with hname | ⟨g₁, hg₁, hname⟩
            · exact Or.inl hname
            · exact Or.inr ⟨g₁, List.mem_cons_of_mem _ hg₁, hname⟩

/-- Joining a group keeps the order. -/
theorem ascending_addTo {gs gs' : List TagGroup} (h : addTo id e name gs = some gs')
    (hgs : Ascending gs) : Ascending gs' := by
  induction gs generalizing gs' with
  | nil =>
      obtain ⟨g, -, rfl⟩ := Option.map_eq_some_iff.mp h
      exact List.pairwise_singleton _ _
  | cons g gs ih =>
      obtain ⟨hhead, htail⟩ := List.pairwise_cons.mp hgs
      unfold addTo at h
      split at h
      · obtain ⟨g₁, hadd, rfl⟩ := Option.map_eq_some_iff.mp h
        refine List.pairwise_cons.mpr ⟨fun g' hg' => ?_, htail⟩
        rw [name_add hadd]
        exact hhead g' hg'
      · next hne =>
        split at h
        · next hlt =>
          obtain ⟨g₁, hadd, rfl⟩ := Option.map_eq_some_iff.mp h
          refine List.pairwise_cons.mpr ⟨fun g' hg' => ?_, hgs⟩
          rw [name_add hadd]
          rcases List.mem_cons.mp hg' with rfl | hg'
          · exact hlt
          · exact String.lt_trans hlt (hhead g' hg')
        · next hlt =>
          have hgt : g.name < name := Std.lt_of_le_of_ne (String.not_lt.mp hlt) (Ne.symm hne)
          obtain ⟨gs₁, hrest, rfl⟩ := Option.map_eq_some_iff.mp h
          refine List.pairwise_cons.mpr ⟨fun g' hg' => ?_, ih hrest htail⟩
          rcases name_of_mem_addTo hrest hg' with hname | ⟨g₁, hg₁, hname⟩
          · rw [hname]
            exact hgt
          · rw [hname]
            exact hhead g₁ hg₁

end TagGroup

/-- What every step of a fold in `Option` keeps, the whole fold keeps. -/
theorem foldlM_of_step {α β : Type} {P : β → Prop} {f : β → α → Option β}
    (hstep : ∀ b a b', P b → f b a = some b' → P b') {as : List α} {b b' : β} (hb : P b)
    (h : as.foldlM f b = some b') : P b' := by
  induction as generalizing b with
  | nil =>
      obtain rfl := Option.some.inj h
      exact hb
  | cons a as ih =>
      obtain ⟨b₁, hfirst, hrest⟩ := Option.bind_eq_some_iff.mp h
      exact ih (hstep b a b₁ hb hfirst) hrest

namespace Tree

/-- The groups of a tree ascend by name. -/
theorem ascending_tagGroups {t : Tree} {gs : List TagGroup} (h : t.tagGroups = some gs) :
    TagGroup.Ascending gs := by
  refine foldlM_of_step (fun gs x gs' hgs hx => ?_) List.Pairwise.nil h
  exact foldlM_of_step (fun _ _ _ hgs hname => TagGroup.ascending_addTo hname hgs) hgs hx

end Tree

/-! ## Completed tallies -/

/-- A completed tally of a feature leaves its scenarios named and indexed. -/
theorem FeatureEntry.index_of_tally {f f' : FeatureEntry} (h : f.tally = .done f') :
    f'.summary.index = f'.scenarios.labels ∧ ∀ l ∈ f'.scenarios.labels, l.isSome := by
  obtain ⟨f₁, -, h⟩ := Attempt.andThen_eq_done_iff.mp h
  obtain ⟨counts, -, h⟩ := Attempt.require_eq_done_iff.mp h
  cases h
  exact ⟨rfl, fun l hl => Family.isSome_of_mem_labels_labelAll hl⟩

namespace Tree

/-- What a completed tally promises: every member is named, the indices are the names, and the
groups by tag ascend. -/
structure Tallied (t : Tree) : Prop where
  sound : t.Sound
  index : t.summary.index = t.features.labels
  named : ∀ l ∈ t.features.labels, l.isSome
  features : ∀ i f, t.feature? i = some f →
    f.summary.index = f.scenarios.labels ∧ ∀ l ∈ f.scenarios.labels, l.isSome
  tags : TagGroup.Ascending t.summary.tags

/-- What a completed tally leaves behind. -/
theorem tallied_of_done {t t' : Tree} (hs : t.Sound) (h : t.tally = .done t') : t'.Tallied := by
  have hsound := (grows_of_tally h).sound hs
  -- each stage of a completed tally completed in turn
  obtain ⟨t₁, hfeatures, h⟩ := Attempt.andThen_eq_done_iff.mp h
  obtain ⟨counts, -, h⟩ := Attempt.require_eq_done_iff.mp h
  obtain ⟨tags, htags, h⟩ := Attempt.require_eq_done_iff.mp h
  obtain ⟨fs, hattempt, rfl⟩ := Attempt.map_eq_done_iff.mp hfeatures
  have hvalues := t.features.values_attempt FeatureEntry.tally
  rw [hattempt] at hvalues
  have heach := Attempt.each_eq_done_iff.mp hvalues.symm
  cases h
  refine ⟨hsound, rfl, fun l hl => Family.isSome_of_mem_labels_labelAll hl, fun i f hf => ?_,
    ascending_tagGroups htags⟩
  rw [feature?, Family.get?_eq, Family.values_labelAll] at hf
  obtain ⟨hi, rfl⟩ := List.getElem?_eq_some_iff.mp hf
  exact FeatureEntry.index_of_tally (heach.get (heach.length_eq ▸ hi) hi)

end Tree

end ScenarioResults
