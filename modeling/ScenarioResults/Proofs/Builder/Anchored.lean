import ScenarioResults.Proofs.Builder.Step
import ScenarioResults.Proofs.Tree.Edit

/-!
# Builders whose handles are good

A builder knows the open feature and scenario by position. `Anchored` says that these positions
exist in its tree and that a step awaits its result only where a background or scenario is open. A
fresh builder is anchored and every accepted event keeps it so.
-/

namespace ScenarioResults.Builder

variable {σ : Type} {b b' : Builder σ} {e : Event}

/-- The open positions exist, and a step waits only inside a background or scenario. -/
structure Anchored (b : Builder σ) : Prop where
  feature : ∀ i, b.opened.feature? = some i → (b.tree.feature? i).isSome
  scenario : ∀ id, b.opened = .inScenario id → (b.tree.scenario? id).isSome
  pending : b.pending.isSome → b.takesSteps = true

/-- An idle builder without an awaiting step is anchored, whatever its tree is. -/
theorem anchored_of_idle (hidle : b.opened = .idle) (hpending : b.pending = none) : b.Anchored :=
  ⟨fun _ h => by simp [hidle, Open.feature?] at h, fun _ h => by simp [hidle] at h,
    fun h => by simp [hpending] at h⟩

/-- A new builder is anchored. -/
theorem anchored_new (settings : Settings) (store : σ) : (new settings store).Anchored :=
  anchored_of_idle rfl rfl

/-- Steps are taken where a background or a scenario is open. -/
theorem takesSteps_iff : b.takesSteps = true ↔
    (∃ i background held, b.opened = .inBackground i background held) ∨
      ∃ id, b.opened = .inScenario id := by
  cases h : b.opened <;> simp [takesSteps, Builder.context, h, Open.context]

/-- The scenario that was added is there. -/
theorem isSome_scenario?_addScenario {t : Tree} {i : ℕ} {owner : FeatureEntry}
    (howner : t.feature? i = some owner) (s : Scenario) :
    ((t.addScenario i s).scenario? ⟨i, owner.scenarios.size⟩).isSome := by
  have hi : t.content[i]? = some owner.content := by rw [Tree.content_getElem?, howner]; rfl
  rw [Tree.isSome_scenario?]
  refine ⟨{ owner.content with scenarios := owner.content.scenarios ++ [s] }, s, ?_, ?_⟩
  · simp [Tree.content_addScenario, hi]
  · simp [FeatureEntry.content, Name.Family.size_eq_length_values]

/-- A scenario that is changed is there still. -/
theorem isSome_scenario?_modifyScenario {t : Tree} {id : ScenarioId} (g : Scenario → Scenario)
    (h : (t.scenario? id).isSome) : ((t.modifyScenario id g).scenario? id).isSome := by
  rw [Tree.isSome_scenario?] at h ⊢
  obtain ⟨f, s, hf, hs⟩ := h
  refine ⟨{ f with scenarios := f.scenarios.modify id.scenario g }, g s, ?_, ?_⟩
  · simp [Tree.content_modifyScenario, hf]
  · simp [hs]

section Process

variable [AttachmentStore σ] {item : Item}

/-- Having its step or payload taken care of leaves a builder anchored. -/
theorem Yields.anchored (h : Yields b e item b') (hb : b.Anchored) : b'.Anchored := by
  cases h with
  | result => exact ⟨hb.feature, hb.scenario, fun h => by simp at h⟩
  | before => exact hb
  | after => exact hb
  | embedding => exact ⟨hb.feature, hb.scenario, hb.pending⟩

/-- An accepted event leaves a step waiting only inside a background or scenario. -/
theorem Accepts.takesSteps (h : Accepts b e b') (hb : b.pending.isSome → b.takesSteps = true)
    (hpending : b'.pending.isSome) : b'.takesSteps = true := by
  cases h with
  | documentStart | feature | background | scenario | endOfDocument => simp at hpending
  | step hopen => exact hopen
  | binding hwaiting => exact hb (by simp [hwaiting])
  | hold => exact takesSteps_iff.mpr (Or.inl ⟨_, _, _, rfl⟩)
  | record hyields hopen =>
      exact takesSteps_iff.mpr (Or.inr ⟨_, hyields.same.1.trans hopen⟩)
  | write | outline | examples => exact hb hpending

/-- An accepted event keeps a builder anchored. -/
theorem Accepts.anchored (h : Accepts b e b') (hb : b.Anchored) : b'.Anchored := by
  have hpending := h.takesSteps hb.pending
  cases h with
  | documentStart =>
      exact ⟨fun _ h => by simp [Open.feature?] at h, fun _ h => by simp at h, hpending⟩
  | feature =>
      refine ⟨fun i hi => ?_, fun _ h => by simp at h, hpending⟩
      obtain rfl : b.tree.features.size = i := by simpa [Open.feature?] using hi
      rw [Tree.isSome_feature?, Tree.content_addFeature, List.length_append, Tree.length_content]
      simp
  | background _ hfeature =>
      refine ⟨fun i hi => hb.feature i ?_, fun _ h => by simp at h, hpending⟩
      rw [hfeature]
      simpa [Open.feature?] using hi
  | @scenario header i owner hfeature howner _ =>
      refine ⟨fun j hj => ?_, fun id hid => ?_, hpending⟩
      · obtain rfl : i = j := by simpa [Open.feature?] using hj
        -- the tree only grows, so the open feature is still there
        exact (b.tree.grows_addScenario i _).isSome_feature? (hb.feature i hfeature)
      · obtain rfl : (⟨i, owner.scenarios.size⟩ : ScenarioId) = id := by simpa using hid
        exact isSome_scenario?_addScenario howner _
  | step | binding => exact ⟨hb.feature, hb.scenario, hpending⟩
  | @hold _ b₁ item i background held hyields hopen =>
      have hb₁ := hyields.anchored hb
      refine ⟨fun j hj => hb₁.feature j ?_, fun _ h => by simp at h, hpending⟩
      rw [hyields.same.1, hopen]
      simpa [Open.feature?] using hj
  | @record _ b₁ item id hyields hopen hscenario =>
      have hb₁ := hyields.anchored hb
      refine ⟨fun j hj => ?_, fun id' hid' => ?_, hpending⟩
      · exact (b.tree.grows_modifyScenario id item.onScenario).isSome_feature?
          (hyields.same.2 ▸ hb₁.feature j hj)
      · obtain rfl : id = id' := by simpa [hyields.same.1, hopen] using hid'
        exact isSome_scenario?_modifyScenario item.onScenario hscenario
  | write | outline | examples => exact hb
  | endOfDocument =>
      exact ⟨fun _ h => by simp [Open.feature?] at h, fun _ h => by simp at h, hpending⟩

end Process

end ScenarioResults.Builder
