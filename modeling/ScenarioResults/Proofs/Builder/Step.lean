import Mathlib.Tactic.Common
import ScenarioResults.Builder.Process

/-!
# Accepted events as a transition relation

`Accepts b e b'` lists what a builder may do with an event it accepts, each guard and each result
written out. Four kinds of events add an item to the open background or scenario; `Yields` says
which item, so that where it lands is said once. `process_iff` equates the relation with
`Builder.process`, and `Spares` says what a refused event leaves (`spares_process_of_refused`).
-/

namespace ScenarioResults

/-- What an event adds to the open background or scenario. -/
inductive Item where
  | step (s : Step)
  | before (h : Hook)
  | after (h : Hook)
  | attachment (r : AttachmentRef)

namespace Item

/-- Append the item to an open scenario. -/
def onScenario : Item → Scenario → Scenario
  | step x, s => { s with steps := s.steps ++ [x] }
  | before h, s => { s with before := s.before ++ [h] }
  | after h, s => { s with after := s.after ++ [h] }
  | attachment r, s => { s with attachments := s.attachments ++ [r] }

/-- Append the item to an open background; only steps are its own. -/
def onBackground : Item → Background → Background
  | step x, b => { b with steps := b.steps ++ [x] }
  | _, b => b

/-- Keep the item for the scenario that adopts the open background. -/
def onHeld : Item → Held → Held
  | step _, held => held
  | before h, held => { held with before := held.before ++ [h] }
  | after h, held => { held with after := held.after ++ [h] }
  | attachment r, held => { held with attachments := held.attachments ++ [r] }

end Item

/-- What an awaiting step becomes with its result: the fields of its declaration, the location of its
binding, if there was one, and the verdict. -/
def PendingStep.resolved (p : PendingStep) (verdict : Verdict) : Step :=
  { keyword := p.step.keyword
    name := p.step.name
    line := p.step.line
    location := p.glue.bind Glue.location
    verdict }

namespace Builder

variable {σ : Type}

/-- A structural event may drop the awaiting step: there is none, or the ordering is lenient. -/
def Ready (b : Builder σ) : Prop := b.settings.strict = true → b.pending = none

/-- The event adds the item; the builder shown has the item's step or payload taken care of. -/
inductive Yields [AttachmentStore σ] (b : Builder σ) : Event → Item → Builder σ → Prop
  | result {p : PendingStep} {v : Verdict} (hpending : b.pending = some p) :
      Yields b (.result v) (.step (p.resolved v)) { b with pending := none }
  | before {glue : Glue} {v : Verdict} :
      Yields b (.before glue v) (.before { location := glue.location, verdict := v }) b
  | after {glue : Glue} {v : Verdict} :
      Yields b (.after glue v) (.after { location := glue.location, verdict := v }) b
  | embedding {mimeType : String} {data : Bytes} {filename : String} {store : σ}
      (hoffer : AttachmentStore.offer b.store mimeType data = (.ok filename, store)) :
      Yields b (.embedding mimeType data) (.attachment { mimeType, filename }) { b with store }

/-- What the builder may do with an event it accepts. -/
inductive Accepts [AttachmentStore σ] (b : Builder σ) : Event → Builder σ → Prop
  | documentStart {uri : String} (hopen : b.opened.uri? = none) (hready : b.Ready) :
      Accepts b (.documentStart uri) { b with pending := none, opened := .uriSeen uri }
  | feature {header : Header} (hready : b.Ready) :
      Accepts b (.feature header)
        { b with
          pending := none
          tree := b.tree.addFeature b.opened.uri? header
          opened := .inFeature b.tree.features.size }
  | background {header : BackgroundHeader} {i : ℕ} (hopen : b.opened.background? = none)
      (hfeature : b.opened.feature? = some i) (hready : b.Ready) :
      Accepts b (.background header)
        { b with
          pending := none
          opened :=
            .inBackground i
              { keyword := header.keyword, name := header.name, line := header.line } {} }
  | scenario {header : Header} {i : ℕ} {owner : FeatureEntry}
      (hfeature : b.opened.feature? = some i) (howner : b.tree.feature? i = some owner)
      (hready : b.Ready) :
      Accepts b (.scenario header)
        { b with
          pending := none
          tree := b.tree.addScenario i (b.opened.adopted header)
          opened := .inScenario ⟨i, owner.scenarios.size⟩ }
  | step {header : StepHeader} (hopen : b.takesSteps = true) (hready : b.Ready) :
      Accepts b (.step header) { b with pending := some { step := header } }
  | binding {glue : Glue} {p : PendingStep} (hpending : b.pending = some p)
      (hglue : b.settings.strict = true → p.glue = none) :
      Accepts b (.binding glue) { b with pending := some { p with glue := some glue } }
  | hold {e : Event} {b' : Builder σ} {item : Item} {i : ℕ} {background : Background}
      {held : Held} (hyields : Yields b e item b')
      (hopen : b.opened = .inBackground i background held) :
      Accepts b e
        { b' with opened := .inBackground i (item.onBackground background) (item.onHeld held) }
  | record {e : Event} {b' : Builder σ} {item : Item} {id : ScenarioId}
      (hyields : Yields b e item b') (hopen : b.opened = .inScenario id)
      (hscenario : (b.tree.scenario? id).isSome) :
      Accepts b e { b' with tree := b.tree.modifyScenario id item.onScenario }
  | write {text : String} : Accepts b (.write text) b
  | outline {header : Header} : Accepts b (.outline header) b
  | examples {name : String} : Accepts b (.examples name) b
  | endOfDocument : Accepts b .endOfDocument { b with pending := none, opened := .idle }

/-! ## Reactions -/

variable {b b' : Builder σ} {e : Event}

/-- Two reactions in a row accept exactly when both do. -/
theorem error_andThen {r : Reaction σ} {next : Builder σ → Reaction σ} :
    (r.andThen next).error = none ↔ r.error = none ∧ (next r.builder).error = none := by
  cases h : r.error <;> simp [Reaction.andThen, h]

/-- Behind a reaction that accepts, the second one says what is left. -/
theorem builder_andThen {r : Reaction σ} {next : Builder σ → Reaction σ} (h : r.error = none) :
    (r.andThen next).builder = (next r.builder).builder := by
  simp [Reaction.andThen, h]

/-- A reaction that refuses is the last one. -/
theorem builder_andThen_of_refused {r : Reaction σ} {next : Builder σ → Reaction σ}
    (h : r.error ≠ none) : (r.andThen next).builder = r.builder := by
  cases hr : r.error with
  | none => exact absurd hr h
  | some _ => simp [Reaction.andThen, hr]

/-- What a refused sequence leaves is what its first part or its second part refuses with. -/
theorem andThen_of_refused {P : Builder σ → Prop} {r : Reaction σ} {next : Builder σ → Reaction σ}
    (hfirst : P r.builder)
    (hnext : (next r.builder).error ≠ none → P (next r.builder).builder)
    (h : (r.andThen next).error ≠ none) : P (r.andThen next).builder := by
  by_cases hr : r.error = none
  · rw [builder_andThen hr]
    exact hnext fun hn => h (error_andThen.mpr ⟨hr, hn⟩)
  · rw [builder_andThen_of_refused hr]
    exact hfirst

/-- Dropping the awaiting step empties its place even where that is an error. -/
theorem builder_dropPending (b : Builder σ) (kind : EventKind) :
    (b.dropPending kind).builder = { b with pending := none } := by
  unfold dropPending
  cases h : b.pending with
  | none =>
      cases b
      cases h
      rfl
  | some p =>
      dsimp only
      split <;> rfl

/-- Dropping the awaiting step is accepted from a builder that is ready for it. -/
theorem error_dropPending (b : Builder σ) (kind : EventKind) :
    (b.dropPending kind).error = none ↔ b.Ready := by
  unfold dropPending Ready
  cases h : b.pending with
  | none => simp [accept]
  | some p => by_cases hs : b.settings.strict = true <;> simp [hs, accept, refuse]

/-- Leaving a context empties the place of the awaiting step. -/
theorem builder_leave (b : Builder σ) (kind : EventKind) :
    (b.leave kind).builder = { b with pending := none } := by
  rw [← builder_dropPending b kind, leave, Reaction.andThen]
  split <;> rfl

/-- Leaving a context is accepted from a builder that is ready for it. -/
theorem error_leave (b : Builder σ) (kind : EventKind) :
    (b.leave kind).error = none ↔ b.Ready := by
  rw [leave, error_andThen, error_dropPending]
  exact and_iff_left rfl

/-- What a refused event leaves: the tree as it was, the awaiting step unless it was dropped, and the
open context unless a scenario found its feature gone. -/
structure Spares (b b' : Builder σ) : Prop where
  tree : b'.tree = b.tree
  pending : b'.pending = b.pending ∨ b'.pending = none
  opened : b'.opened = b.opened ∨ (b'.opened = .idle ∧ b'.pending = none)

theorem Spares.refl (b : Builder σ) : Spares b b := ⟨rfl, Or.inl rfl, Or.inl rfl⟩

/-- So is one that is left as it was. -/
theorem Spares.of_eq (h : b' = b) : Spares b b' := by
  subst h
  exact .refl b'

/-- Dropping the awaiting step spares the rest. -/
theorem Spares.dropped (b : Builder σ) : Spares b { b with pending := none } :=
  ⟨rfl, Or.inr rfl, Or.inl rfl⟩

/-! ## Placing an item -/

/-- A change to the open scenario is accepted where that scenario exists. -/
theorem error_onScenario {kind : EventKind} {g : Scenario → Scenario} :
    (b.onScenario kind g).error = none ↔
      ∃ id, b.opened = .inScenario id ∧ (b.tree.scenario? id).isSome := by
  unfold onScenario
  cases b.opened with
  | inScenario id =>
      by_cases h : (b.tree.scenario? id).isSome = true <;> simp [h, accept, unexpected, refuse]
  | idle | uriSeen _ | inFeature _ | inBackground _ _ _ => simp [unexpected, refuse]

/-- A change to the open scenario changes its record in the tree. -/
theorem builder_onScenario {kind : EventKind} {g : Scenario → Scenario} {id : ScenarioId}
    (hopen : b.opened = .inScenario id) (h : (b.tree.scenario? id).isSome) :
    (b.onScenario kind g).builder = { b with tree := b.tree.modifyScenario id g } := by
  unfold onScenario
  rw [hopen]
  simp [h, accept]

/-- Hand an item to the open background, else to the open scenario. -/
def place (b : Builder σ) (kind : EventKind) (item : Item) : Reaction σ :=
  match b.opened with
  | .inBackground i background held =>
    { b with
      opened := .inBackground i (item.onBackground background) (item.onHeld held) }.accept
  | _ => b.onScenario kind item.onScenario

/-- An item is taken where a background or an existing scenario is open. -/
theorem error_place {kind : EventKind} {item : Item} :
    (b.place kind item).error = none ↔
      (∃ i background held, b.opened = .inBackground i background held) ∨
        ∃ id, b.opened = .inScenario id ∧ (b.tree.scenario? id).isSome := by
  unfold place
  split
  · next hopen => simp [accept, hopen]
  · next hopen =>
      rw [error_onScenario]
      exact (or_iff_right fun ⟨i, background, held, h⟩ => hopen i background held h).symm

/-- An open background takes the item, or holds it. -/
theorem builder_place_held {kind : EventKind} {item : Item} {i : ℕ} {background : Background}
    {held : Held} (hopen : b.opened = .inBackground i background held) :
    (b.place kind item).builder =
      { b with opened := .inBackground i (item.onBackground background) (item.onHeld held) } := by
  unfold place
  rw [hopen]
  rfl

/-- An open scenario takes the item. -/
theorem builder_place_scenario {kind : EventKind} {item : Item} {id : ScenarioId}
    (hopen : b.opened = .inScenario id) (h : (b.tree.scenario? id).isSome) :
    (b.place kind item).builder =
      { b with tree := b.tree.modifyScenario id item.onScenario } := by
  have hplace : b.place kind item = b.onScenario kind item.onScenario := by
    unfold place
    rw [hopen]
  rw [hplace]
  exact builder_onScenario hopen h

/-- An item that is not taken leaves the builder as it was. -/
theorem builder_place_of_refused {kind : EventKind} {item : Item}
    (h : (b.place kind item).error ≠ none) : (b.place kind item).builder = b := by
  unfold place onScenario at h ⊢
  cases hopen : b.opened with
  | inBackground i background held => simp [hopen, accept] at h
  | inScenario id =>
      by_cases hscenario : (b.tree.scenario? id).isSome = true
      · simp [hopen, hscenario, accept] at h
      · simp [hscenario, unexpected, refuse]
  | idle | uriSeen _ | inFeature _ => simp [unexpected, refuse]

/-- A setup hook is placed as an item. -/
theorem before_eq_place (b : Builder σ) (hook : Hook) :
    b.before hook = b.place .before (.before hook) := by
  unfold before place
  cases b.opened <;> rfl

/-- A teardown hook is placed as an item. -/
theorem after_eq_place (b : Builder σ) (hook : Hook) :
    b.after hook = b.place .after (.after hook) := by
  unfold after place
  cases b.opened <;> rfl

/-- A result makes an item of the awaiting step, which is placed once the step waits no more. -/
theorem result_eq_place (b : Builder σ) (v : Verdict) :
    b.result v =
      match b.pending with
      | none => b.unexpected .result
      | some p =>
        { b with pending := none }.place .result (.step (p.resolved v)) := by
  unfold result place
  cases b.pending with
  | none => rfl
  | some p => cases b.opened <;> rfl

/-- An attachment is offered to the store first, and its reference is placed as an item. -/
theorem embedding_eq_place [AttachmentStore σ] (b : Builder σ) (mimeType : String) (data : Bytes) :
    b.embedding mimeType data =
      if b.takesSteps then
        match AttachmentStore.offer b.store mimeType data with
        | (.error fault, store) => { b with store }.refuse (.attachmentRefused mimeType fault)
        | (.ok filename, store) =>
          { b with store }.place .embedding (.attachment { mimeType, filename })
      else b.unexpected .embedding := by
  unfold embedding place
  split
  · rcases AttachmentStore.offer b.store mimeType data with ⟨fault | filename, store⟩
    · rfl
    · cases b.opened <;> rfl
  · rfl

/-! ## Handlers that refuse -/

/-- Leaving a context drops at most the awaiting step, whether it is refused or not. -/
theorem spares_leave (b : Builder σ) (kind : EventKind) : Spares b (b.leave kind).builder := by
  rw [builder_leave]
  exact .dropped b

/-- A refused document leaves the open context: another one is announced, or a step is in the way. -/
theorem spares_documentStart {uri : String} (h : (b.documentStart uri).error ≠ none) :
    Spares b (b.documentStart uri).builder := by
  rw [documentStart] at h ⊢
  split at h
  · exact .refl b
  · exact andThen_of_refused (spares_leave b _) (fun hn => absurd rfl hn) h

/-- A feature is refused only where a step is in the way, which is dropped. -/
theorem spares_feature {header : Header} (h : (b.feature header).error ≠ none) :
    Spares b (b.feature header).builder :=
  andThen_of_refused (spares_leave b _) (fun hn => absurd rfl hn) h

/-- A refused background leaves the open context: it is a background, it has no feature, or a step is
in the way. -/
theorem spares_background {header : BackgroundHeader} (h : (b.background header).error ≠ none) :
    Spares b (b.background header).builder := by
  rw [background] at h ⊢
  by_cases hopen : b.opened.background?.isSome = true
  · rw [if_pos hopen]
    exact .refl b
  · rw [if_neg hopen] at h ⊢
    cases hfeature : b.opened.feature? with
    | none => exact .refl b
    | some i =>
        rw [hfeature] at h
        exact andThen_of_refused (spares_leave b _) (fun hn => absurd rfl hn) h

/-- A refused scenario leaves the open context unless its feature is gone. -/
theorem spares_scenario {header : Header} (h : (b.scenario header).error ≠ none) :
    Spares b (b.scenario header).builder := by
  rw [scenario] at h ⊢
  cases hfeature : b.opened.feature? with
  | none => exact .refl b
  | some i =>
      rw [hfeature] at h
      refine andThen_of_refused (P := Spares b) ?_ (fun hn => ?_) h
      · rw [builder_dropPending]
        exact .dropped b
      · -- the feature is gone, and with it the open context
        rw [builder_dropPending] at hn ⊢
        cases howner : b.tree.feature? i with
        | none =>
            simp only [unexpected, refuse]
            exact ⟨rfl, Or.inr rfl, Or.inr ⟨rfl, rfl⟩⟩
        | some owner => simp [howner, accept] at hn

/-- A refused step leaves the builder as it was. -/
theorem builder_step_of_refused {header : StepHeader} (h : (b.step header).error ≠ none) :
    (b.step header).builder = b := by
  rw [step] at h ⊢
  by_cases hopen : b.takesSteps = true
  · rw [if_pos hopen] at h ⊢
    cases hpending : b.pending with
    | none => simp [hpending, accept] at h
    | some p =>
        by_cases hs : b.settings.strict = true
        · simp only [hs, if_true, refuse]
        · simp [hpending, hs, accept] at h
  · rw [if_neg hopen]
    rfl

/-- A refused binding leaves the builder as it was. -/
theorem builder_binding_of_refused {glue : Glue} (h : (b.binding glue).error ≠ none) :
    (b.binding glue).builder = b := by
  rw [binding] at h ⊢
  cases hpending : b.pending with
  | none => rfl
  | some p =>
      by_cases hglue : p.glue.isNone = true
      · simp [hpending, hglue, accept] at h
      · by_cases hs : b.settings.strict = true
        · simp only [hglue, hs, if_true, refuse]
          rfl
        · simp [hpending, hglue, hs, accept] at h

/-- The step of a refused result has stopped waiting where there was one. -/
theorem spares_result {v : Verdict} (h : (b.result v).error ≠ none) :
    Spares b (b.result v).builder := by
  rw [result_eq_place] at h ⊢
  cases hpending : b.pending with
  | none => exact .refl b
  | some p =>
      rw [hpending] at h
      dsimp only at h ⊢
      rw [builder_place_of_refused h]
      exact .dropped b

/-- The store of a refused attachment may have changed, and nothing else. -/
theorem spares_embedding [AttachmentStore σ] {mimeType : String} {data : Bytes}
    (h : (b.embedding mimeType data).error ≠ none) :
    Spares b (b.embedding mimeType data).builder := by
  rw [embedding_eq_place] at h ⊢
  by_cases hopen : b.takesSteps = true
  · rw [if_pos hopen] at h ⊢
    rcases hoffer : AttachmentStore.offer b.store mimeType data with ⟨fault | filename, store⟩
    · exact ⟨rfl, Or.inl rfl, Or.inl rfl⟩
    · rw [hoffer] at h
      dsimp only at h ⊢
      rw [builder_place_of_refused h]
      exact ⟨rfl, Or.inl rfl, Or.inl rfl⟩
  · rw [if_neg hopen]
    exact .refl b

section Process

variable [AttachmentStore σ] {item : Item}

/-- Telling that an event arrived refuses nothing. -/
@[simp]
theorem error_process (b : Builder σ) (e : Event) : (b.process e).error = (b.react e).error := rfl

/-- Telling that an event arrived changes nothing. -/
@[simp]
theorem builder_process (b : Builder σ) (e : Event) :
    (b.process e).builder = (b.react e).builder := rfl

/-- A list is accepted when all but the last event are and then the last one is. -/
theorem error_processAll_concat (b : Builder σ) (es : List Event) (e : Event) :
    (b.processAll (es ++ [e])).error = none ↔
      (b.processAll es).error = none ∧ ((b.processAll es).builder.process e).error = none := by
  induction es generalizing b with
  | nil => simp [processAll, error_andThen, accept]
  | cons x es ih =>
      rw [List.cons_append, processAll, error_andThen, ih, processAll, error_andThen, and_assoc]
      refine and_congr_right fun hx => ?_
      rw [builder_andThen hx]

/-- The last event of a list is processed by what the others left. -/
theorem builder_processAll_concat {es : List Event} (h : (b.processAll es).error = none) :
    (b.processAll (es ++ [e])).builder = ((b.processAll es).builder.process e).builder := by
  induction es generalizing b with
  | nil => simp [processAll, Reaction.andThen, accept]; split <;> rfl
  | cons x es ih =>
      rw [processAll, error_andThen] at h
      rw [List.cons_append, processAll, builder_andThen h.1, ih h.2, processAll,
        builder_andThen h.1]

/-! ## The relation is the function -/

/-- A document that is accepted is announced. -/
theorem accepts_documentStart {uri : String} (h : (b.documentStart uri).error = none) :
    Accepts b (.documentStart uri) (b.documentStart uri).builder := by
  unfold documentStart at h ⊢
  cases hopen : b.opened.uri? with
  | some pending => simp [hopen, refuse] at h
  | none =>
      simp only [hopen, error_andThen, error_leave] at h
      dsimp only
      rw [builder_andThen ((error_leave b _).mpr h.1), builder_leave]
      exact .documentStart hopen h.1

/-- A feature that is accepted is open at the end of the tree. -/
theorem accepts_feature {header : Header} (h : (b.feature header).error = none) :
    Accepts b (.feature header) (b.feature header).builder := by
  unfold feature at h ⊢
  rw [error_andThen, error_leave] at h
  rw [builder_andThen ((error_leave b _).mpr h.1), builder_leave]
  exact .feature h.1

/-- A background that is accepted is open in the open feature. -/
theorem accepts_background {header : BackgroundHeader} (h : (b.background header).error = none) :
    Accepts b (.background header) (b.background header).builder := by
  unfold background at h ⊢
  cases hopen : b.opened.background? with
  | some name => simp [hopen, refuse] at h
  | none =>
      cases hfeature : b.opened.feature? with
      | none => simp [hopen, hfeature, unexpected, refuse] at h
      | some i =>
          simp only [hopen, hfeature, Option.isSome_none, Bool.false_eq_true, if_false,
            error_andThen, error_leave] at h ⊢
          rw [builder_andThen ((error_leave b _).mpr h.1), builder_leave]
          exact .background hopen hfeature h.1

/-- A scenario that is accepted is open in the open feature. -/
theorem accepts_scenario {header : Header} (h : (b.scenario header).error = none) :
    Accepts b (.scenario header) (b.scenario header).builder := by
  unfold scenario at h ⊢
  cases hfeature : b.opened.feature? with
  | none => simp [hfeature, unexpected, refuse] at h
  | some i =>
      simp only [hfeature, error_andThen, error_dropPending, builder_dropPending] at h ⊢
      rw [builder_andThen ((error_dropPending b _).mpr h.1), builder_dropPending]
      cases howner : b.tree.feature? i with
      | none => simp [howner, unexpected, refuse] at h
      | some owner => exact .scenario hfeature howner h.1

/-- A step that is accepted awaits its result. -/
theorem accepts_step {header : StepHeader} (h : (b.step header).error = none) :
    Accepts b (.step header) (b.step header).builder := by
  unfold step at h ⊢
  by_cases hopen : b.takesSteps = true
  · cases hpending : b.pending with
    | none =>
        simp only [hopen, if_true]
        exact .step hopen fun _ => hpending
    | some p =>
        by_cases hs : b.settings.strict = true
        · simp [hopen, hpending, hs, refuse] at h
        · simp only [hopen, if_true, hs]
          exact .step hopen fun hs' => absurd hs' hs
  · simp [hopen, unexpected, refuse] at h

/-- A binding that is accepted is that of the awaiting step. -/
theorem accepts_binding {glue : Glue} (h : (b.binding glue).error = none) :
    Accepts b (.binding glue) (b.binding glue).builder := by
  unfold binding at h ⊢
  cases hpending : b.pending with
  | none => simp [hpending, unexpected, refuse] at h
  | some p =>
      by_cases hglue : p.glue.isNone = true
      · simp only [hglue, if_true]
        exact .binding hpending fun _ => Option.isNone_iff_eq_none.mp hglue
      · by_cases hs : b.settings.strict = true
        · simp [hpending, hglue, hs, refuse] at h
        · simp only [hglue, hs]
          exact .binding hpending fun hs' => absurd hs' hs

/-- Having its step or payload taken care of changes neither what is open nor the tree. -/
theorem Yields.same (h : Yields b e item b') : b'.opened = b.opened ∧ b'.tree = b.tree := by
  cases h <;> exact ⟨rfl, rfl⟩

/-- An item is accepted where a background or an existing scenario is open. -/
theorem accepts_place {kind : EventKind} (hyields : Yields b e item b')
    (h : (b'.place kind item).error = none) : Accepts b e (b'.place kind item).builder := by
  obtain ⟨hopened, htree⟩ := hyields.same
  rcases error_place.mp h with ⟨i, background, held, hopen⟩ | ⟨id, hopen, hscenario⟩
  · rw [builder_place_held hopen]
    exact .hold hyields (hopened ▸ hopen)
  · rw [builder_place_scenario hopen hscenario]
    rw [htree] at hscenario ⊢
    exact .record hyields (hopened ▸ hopen) hscenario

/-- What the builder makes of an event it accepts is listed. -/
theorem accepts_process (h : (b.process e).error = none) : Accepts b e (b.process e).builder := by
  rw [error_process] at h
  rw [builder_process]
  cases e with
  | documentStart uri => exact accepts_documentStart h
  | feature header => exact accepts_feature h
  | background header => exact accepts_background h
  | scenario header => exact accepts_scenario h
  | step header => exact accepts_step h
  | binding glue => exact accepts_binding h
  -- items are placed by one function, whatever they are
  | result v =>
      rw [react, result_eq_place] at h ⊢
      cases hpending : b.pending with
      | none => simp [hpending, unexpected, refuse] at h
      | some p =>
          rw [hpending] at h
          exact accepts_place (.result hpending) h
  | before glue v =>
      rw [react, before_eq_place] at h ⊢
      exact accepts_place .before h
  | after glue v =>
      rw [react, after_eq_place] at h ⊢
      exact accepts_place .after h
  | embedding mimeType data =>
      rw [react, embedding_eq_place] at h ⊢
      by_cases hopen : b.takesSteps = true
      · rw [if_pos hopen] at h ⊢
        rcases hoffer : AttachmentStore.offer b.store mimeType data with ⟨fault | filename, store⟩
        · simp [hoffer, refuse] at h
        · rw [hoffer] at h
          exact accepts_place (.embedding hoffer) h
      · simp [hopen, unexpected, refuse] at h
  | write text => exact .write
  | outline header => exact .outline
  | examples name => exact .examples
  | endOfDocument => exact .endOfDocument
  | syntaxError fault => simp [react, refuse] at h

/-- A placed item is taken over by the whole reaction to its event. -/
theorem Yields.process_of_place (hyields : Yields b e item b')
    (hopen : b'.takesSteps = true) :
    ∃ kind, (b.process e).error = (b'.place kind item).error ∧
      (b.process e).builder = (b'.place kind item).builder := by
  rw [error_process, builder_process]
  cases hyields with
  | result hpending => exact ⟨.result, by simp [react, result_eq_place, hpending]⟩
  | before => exact ⟨.before, by simp [react, before_eq_place, Hook.settle]⟩
  | after => exact ⟨.after, by simp [react, after_eq_place, Hook.settle]⟩
  | embedding hoffer =>
      have hopen : b.takesSteps = true := hopen
      exact ⟨.embedding, by simp [react, embedding_eq_place, hopen, hoffer]⟩

/-- Every listed transition is what the builder does. -/
theorem Accepts.process (h : Accepts b e b') :
    (b.process e).error = none ∧ (b.process e).builder = b' := by
  cases h with
  | documentStart hopen hready =>
      have hleave := (error_leave b .documentStart).mpr hready
      simp [react, Builder.documentStart, hopen, error_andThen, builder_andThen, hleave,
        builder_leave, accept]
  | feature hready =>
      have hleave := (error_leave b .feature).mpr hready
      simp [react, Builder.feature, error_andThen, builder_andThen, hleave, builder_leave, accept]
  | background hopen hfeature hready =>
      have hleave := (error_leave b .background).mpr hready
      simp [react, Builder.background, hopen, hfeature, error_andThen, builder_andThen, hleave,
        builder_leave, accept, Background.ofHeader]
  | scenario hfeature howner hready =>
      have hdrop := (error_dropPending b .scenario).mpr hready
      simp [react, Builder.scenario, hfeature, howner, error_andThen, builder_andThen, hdrop,
        builder_dropPending, accept]
  | step hopen hready =>
      cases hpending : b.pending with
      | none => simp [react, Builder.step, hopen, hpending, accept]
      | some p =>
          have hs : b.settings.strict = false := by
            by_contra hs
            simp [hready (by simpa using hs)] at hpending
          simp [react, Builder.step, hopen, hpending, hs, accept]
  | @binding glue p hpending hglue =>
      cases hnone : p.glue with
      | none => simp [react, Builder.binding, hpending, hnone, accept]
      | some old =>
          have hs : b.settings.strict = false := by
            by_contra hs
            simp [hglue (by simpa using hs)] at hnone
          simp [react, Builder.binding, hpending, hnone, hs, accept]
  | @hold _ b₁ item i background held hyields hopen =>
      have hopen' : b₁.opened = .inBackground i background held := hyields.same.1.trans hopen
      obtain ⟨kind, herror, hbuilder⟩ :=
        hyields.process_of_place (by simp [takesSteps, Builder.context, hopen', Open.context])
      rw [herror, hbuilder, error_place, builder_place_held hopen']
      exact ⟨Or.inl ⟨i, background, held, hopen'⟩, rfl⟩
  | @record _ b₁ item id hyields hopen hscenario =>
      have hopen' : b₁.opened = .inScenario id := hyields.same.1.trans hopen
      have hscenario' : (b₁.tree.scenario? id).isSome := by rwa [hyields.same.2]
      obtain ⟨kind, herror, hbuilder⟩ :=
        hyields.process_of_place (by simp [takesSteps, Builder.context, hopen', Open.context])
      rw [herror, hbuilder, error_place, builder_place_scenario hopen' hscenario', hyields.same.2]
      exact ⟨Or.inr ⟨id, hopen', hyields.same.2 ▸ hscenario'⟩, rfl⟩
  | write | outline | examples | endOfDocument => exact ⟨rfl, rfl⟩

/-- The relation is the accepting part of `process`. -/
theorem process_iff : Accepts b e b' ↔ (b.process e).error = none ∧ (b.process e).builder = b' := by
  refine ⟨Accepts.process, ?_⟩
  rintro ⟨h, rfl⟩
  exact accepts_process h

/-! ## Refused events -/

/-- A refused event spares the tree, the awaiting step and the open context. -/
theorem spares_process_of_refused (h : (b.process e).error ≠ none) :
    Spares b (b.process e).builder := by
  rw [error_process] at h
  rw [builder_process]
  cases e with
  | documentStart uri => exact spares_documentStart h
  | feature header => exact spares_feature h
  | background header => exact spares_background h
  | scenario header => exact spares_scenario h
  | step header => exact .of_eq (builder_step_of_refused h)
  | binding glue => exact .of_eq (builder_binding_of_refused h)
  | result v => exact spares_result h
  | before glue v =>
      rw [react, before_eq_place] at h ⊢
      exact .of_eq (builder_place_of_refused h)
  | after glue v =>
      rw [react, after_eq_place] at h ⊢
      exact .of_eq (builder_place_of_refused h)
  | embedding mimeType data => exact spares_embedding h
  | write text | outline header | examples name | endOfDocument => exact absurd rfl h
  | syntaxError fault => exact .refl b

end Process

end Builder

end ScenarioResults
