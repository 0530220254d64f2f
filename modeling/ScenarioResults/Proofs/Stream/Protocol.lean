import Mathlib.Data.List.Induction
import ScenarioResults.Proofs.Builder.Anchored
import ScenarioResults.Proofs.Stream.Trace

/-!
# The accepted streams

A fresh builder whose store refuses nothing accepts a list of events exactly when each event is
legal after those before it: `error_processAll_eq_none_iff`.

`Tracks before b` ties a builder to the events it has accepted: its open context is the one the last
structural event calls for, it knows a feature when one is open, and a step waits when one is open.
One accepted event carries this over to the longer list, and under it an event is accepted exactly
when it is legal.
-/

namespace ScenarioResults.Stream

open Builder (Accepts Yields)

variable {σ : Type} [AttachmentStore σ]

/-- The store after a list of offers. -/
def offerAll (store : σ) (offers : List (String × Bytes)) : σ :=
  offers.foldl (fun store offer => (AttachmentStore.offer store offer.1 offer.2).2) store

/-- Whatever was offered before, the store takes the next payload. -/
def NeverRefuses (store : σ) : Prop :=
  ∀ offers mimeType data, ∃ filename,
    (AttachmentStore.offer (offerAll store offers) mimeType data).1 = .ok filename

/-- A store that never refuses has the same said of it after an offer. -/
theorem NeverRefuses.offer {store : σ} (h : NeverRefuses store) (mimeType : String) (data : Bytes) :
    NeverRefuses (AttachmentStore.offer store mimeType data).2 :=
  fun offers => h ((mimeType, data) :: offers)

/-- Such a store takes the payload that is offered. -/
theorem NeverRefuses.accepts {store : σ} (h : NeverRefuses store) (mimeType : String)
    (data : Bytes) : ∃ filename store',
      AttachmentStore.offer store mimeType data = (.ok filename, store') := by
  obtain ⟨filename, hname⟩ := h [] mimeType data
  exact ⟨filename, (AttachmentStore.offer store mimeType data).2, Prod.ext hname rfl⟩

/-- The context that a structural event leaves open. -/
def contextAfter : Option Event → Context
  | some (.documentStart _) => .uriSeen
  | some (.feature _) => .inFeature
  | some (.background _) => .inBackground
  | some (.scenario _) => .inScenario
  | _ => .idle

/-- The builder stands where the events it has accepted put it. -/
structure Tracks (before : List Event) (b : Builder σ) : Prop where
  anchored : b.Anchored
  context : b.context = contextAfter (lastStructural? before)
  feature : b.opened.feature?.isSome = true ↔ FeatureOpen before
  pending : b.pending.isSome = true ↔ StepOpen before
  bound : b.settings.strict = true →
    ((∃ p, b.pending = some p ∧ p.glue.isSome = true) ↔ StepBound before)
  store : NeverRefuses b.store

variable {before : List Event} {b b' : Builder σ} {e : Event}

/-- An idle builder without a waiting step has accepted nothing that matters. -/
theorem tracks_of_idle (hidle : b.opened = .idle) (hpending : b.pending = none)
    (hstore : NeverRefuses b.store) : Tracks [] b where
  anchored := Builder.anchored_of_idle hidle hpending
  context := by rw [Builder.context, hidle]; rfl
  feature := by simp [hidle, Open.feature?, FeatureOpen, last?]
  pending := by simpa [hpending] using not_stepOpen_nil
  bound := fun _ => by simpa [hpending] using fun h => not_stepOpen_nil h.stepOpen
  store := hstore

/-- A fresh builder has accepted nothing. -/
theorem tracks_new (settings : Settings) {store : σ} (h : NeverRefuses store) :
    Tracks [] (Builder.new settings store) := tracks_of_idle rfl rfl h

/-! ## Reading the builder off the trace -/

/-- The builder takes steps when the trace takes items. -/
theorem Tracks.takesSteps_iff (h : Tracks before b) : b.takesSteps = true ↔ TakesItems before := by
  have hcontext := h.context
  unfold Builder.takesSteps TakesItems BackgroundOpen
  rw [hcontext]
  -- both sides are read off the last structural event
  cases hlast : lastStructural? before with
  | none => simp [contextAfter]
  | some e => cases e <;> simp [contextAfter]

/-- The builder has a background open when the trace does. -/
theorem Tracks.background_iff (h : Tracks before b) :
    b.opened.background? = none ↔ ¬ BackgroundOpen before := by
  have hcontext : b.opened.background? = none ↔ b.context ≠ .inBackground := by
    cases hopen : b.opened <;> simp [Builder.context, hopen, Open.context, Open.background?]
  rw [hcontext, h.context, BackgroundOpen]
  cases hlast : lastStructural? before with
  | none => simp [contextAfter]
  | some e => cases e <;> simp [contextAfter]

/-- The builder has a document announced when the trace does. -/
theorem Tracks.uri_iff (h : Tracks before b) :
    b.opened.uri? = none ↔ ∀ uri, lastStructural? before ≠ some (.documentStart uri) := by
  have hcontext : b.opened.uri? = none ↔ b.context ≠ .uriSeen := by
    cases hopen : b.opened <;> simp [Builder.context, hopen, Open.context, Open.uri?]
  rw [hcontext, h.context]
  cases hlast : lastStructural? before with
  | none => simp [contextAfter]
  | some e => cases e <;> simp [contextAfter]

/-- The builder is ready for what overtakes when, in strict ordering, no step is open in the trace.
-/
theorem Tracks.ready_iff (h : Tracks before b) :
    b.Ready ↔ (b.settings.strict = true → ¬ StepOpen before) := by
  rw [Builder.Ready, ← h.pending]
  simp

/-! ## Accepted events are legal -/

/-- An event that adds an item to the open background or scenario is legal. -/
theorem Tracks.legal_of_yields (h : Tracks before b) {item : Item} (hyields : Yields b e item b')
    (htakes : b.takesSteps = true) : Legal b.settings.strict before e := by
  cases hyields with
  | result hpending => exact h.pending.mp (by simp [hpending])
  | before | after | embedding => exact h.takesSteps_iff.mp htakes

/-- What a builder does with an event that it accepts is legal. -/
theorem Tracks.legal_of_accepts (h : Tracks before b) (he : Accepts b e b') :
    Legal b.settings.strict before e := by
  cases he with
  | documentStart hopen hready => exact ⟨h.uri_iff.mp hopen, h.ready_iff.mp hready⟩
  | feature hready => exact h.ready_iff.mp hready
  | background hopen hfeature hready =>
      exact ⟨h.feature.mp (by simp [hfeature]), h.background_iff.mp hopen, h.ready_iff.mp hready⟩
  | scenario hfeature _ hready => exact ⟨h.feature.mp (by simp [hfeature]), h.ready_iff.mp hready⟩
  | step hopen hready => exact ⟨h.takesSteps_iff.mp hopen, h.ready_iff.mp hready⟩
  | binding hpending hglue =>
      refine ⟨h.pending.mp (by simp [hpending]), fun hs hbound => ?_⟩
      -- a step that is bound in the trace would have its binding in the builder
      obtain ⟨p, hp, hpglue⟩ := (h.bound hs).mpr hbound
      obtain rfl := Option.some.inj (hpending.symm.trans hp)
      simp [hglue hs] at hpglue
  | hold hyields hopen =>
      exact h.legal_of_yields hyields (Builder.takesSteps_iff.mpr (Or.inl ⟨_, _, _, hopen⟩))
  | record hyields hopen _ =>
      exact h.legal_of_yields hyields (Builder.takesSteps_iff.mpr (Or.inr ⟨_, hopen⟩))
  | write | outline | examples | endOfDocument => trivial

/-! ## Legal events are accepted -/

/-- A background is accepted in an open feature that has no background open. -/
theorem Tracks.accepts_background (h : Tracks before b) {header : BackgroundHeader}
    (hlegal : Legal b.settings.strict before (.background header)) :
    ∃ b', Accepts b (.background header) b' := by
  obtain ⟨hfeature, hopen, hready⟩ := hlegal
  obtain ⟨i, hi⟩ := Option.isSome_iff_exists.mp (h.feature.mpr hfeature)
  exact ⟨_, .background (h.background_iff.mpr hopen) hi (h.ready_iff.mpr hready)⟩

/-- A scenario is accepted in an open feature, which the tree has as the builder is anchored. -/
theorem Tracks.accepts_scenario (h : Tracks before b) {header : Header}
    (hlegal : Legal b.settings.strict before (.scenario header)) :
    ∃ b', Accepts b (.scenario header) b' := by
  obtain ⟨hfeature, hready⟩ := hlegal
  obtain ⟨i, hi⟩ := Option.isSome_iff_exists.mp (h.feature.mpr hfeature)
  obtain ⟨owner, howner⟩ := Option.isSome_iff_exists.mp (h.anchored.feature i hi)
  exact ⟨_, .scenario hi howner (h.ready_iff.mpr hready)⟩

/-- A binding is accepted for an open step, which in strict ordering is not bound yet. -/
theorem Tracks.accepts_binding (h : Tracks before b) {glue : Glue}
    (hlegal : Legal b.settings.strict before (.binding glue)) :
    ∃ b', Accepts b (.binding glue) b' := by
  obtain ⟨hopen, hbound⟩ := hlegal
  obtain ⟨p, hp⟩ := Option.isSome_iff_exists.mp (h.pending.mpr hopen)
  refine ⟨_, .binding hp fun hs => ?_⟩
  by_contra hglue
  exact hbound hs ((h.bound hs).mp ⟨p, hp, Option.isSome_iff_ne_none.mpr hglue⟩)

/-- An item is accepted once the open background or scenario takes it. -/
theorem Tracks.accepts_item (h : Tracks before b) {item : Item} (hyields : Yields b e item b')
    (htakes : b.takesSteps = true) : ∃ b'', Accepts b e b'' := by
  rcases Builder.takesSteps_iff.mp htakes with ⟨i, background, held, hopen⟩ | ⟨id, hopen⟩
  · exact ⟨_, .hold hyields hopen⟩
  · exact ⟨_, .record hyields hopen (h.anchored.scenario id hopen)⟩

/-- A legal event is accepted. -/
theorem Tracks.accepts_of_legal (h : Tracks before b)
    (hlegal : Legal b.settings.strict before e) : ∃ b', Accepts b e b' := by
  cases e with
  | documentStart uri =>
      exact ⟨_, .documentStart (h.uri_iff.mpr hlegal.1) (h.ready_iff.mpr hlegal.2)⟩
  | feature header => exact ⟨_, .feature (h.ready_iff.mpr hlegal)⟩
  | background header => exact h.accepts_background hlegal
  | scenario header => exact h.accepts_scenario hlegal
  | step header => exact ⟨_, .step (h.takesSteps_iff.mpr hlegal.1) (h.ready_iff.mpr hlegal.2)⟩
  | binding glue => exact h.accepts_binding hlegal
  | result v =>
      obtain ⟨p, hp⟩ := Option.isSome_iff_exists.mp (h.pending.mpr hlegal)
      exact h.accepts_item (.result hp) (h.anchored.pending (by simp [hp]))
  | before glue v => exact h.accepts_item .before (h.takesSteps_iff.mpr hlegal)
  | after glue v => exact h.accepts_item .after (h.takesSteps_iff.mpr hlegal)
  | embedding mimeType data =>
      obtain ⟨filename, store, hoffer⟩ := h.store.accepts mimeType data
      exact h.accepts_item (.embedding hoffer) (h.takesSteps_iff.mpr hlegal)
  | write text => exact ⟨_, .write⟩
  | outline header => exact ⟨_, .outline⟩
  | examples name => exact ⟨_, .examples⟩
  | endOfDocument => exact ⟨_, .endOfDocument⟩
  | syntaxError fault => exact hlegal.elim

/-- Under a builder that tracks the events so far, the next one is accepted exactly when it is
legal. -/
theorem Tracks.error_process_iff (h : Tracks before b) (e : Event) :
    (b.process e).error = none ↔ Legal b.settings.strict before e := by
  constructor
  · intro herror
    exact h.legal_of_accepts (Builder.accepts_process herror)
  · intro hlegal
    obtain ⟨b', haccepts⟩ := h.accepts_of_legal hlegal
    exact haccepts.process.1

/-! ## One accepted event -/

/-- A structural event sets the context, and any other leaves it. -/
theorem context_of_accepts (h : Accepts b e b') :
    b'.context = if e.isStructural then contextAfter (some e) else b.context := by
  cases h with
  | hold hyields hopen =>
      cases hyields <;> simp [Builder.context, hopen, Open.context, Event.isStructural]
  | record hyields => cases hyields <;> rfl
  | _ => rfl

/-- A feature is open behind the header of one, and stays open up to the next boundary. -/
theorem feature?_of_accepts (h : Accepts b e b') :
    b'.opened.feature?.isSome = true ↔
      (∃ header, e = .feature header) ∨
        (b.opened.feature?.isSome = true ∧ isBoundary e = false) := by
  cases h with
  | documentStart | feature | endOfDocument => simp [Open.feature?, isBoundary]
  | background _ hfeature | scenario hfeature =>
      rw [hfeature]
      simp [Open.feature?, isBoundary]
  | hold hyields hopen => cases hyields <;> simp [Open.feature?, isBoundary, hopen]
  | record hyields => cases hyields <;> simp [isBoundary]
  | step | binding | write | outline | examples => simp [isBoundary]

/-- A step waits behind its declaration, and as long as events let it pass. -/
theorem pending_of_accepts (h : Accepts b e b') :
    b'.pending.isSome = true ↔
      (∃ header, e = .step header) ∨ (b.pending.isSome = true ∧ Passing e) := by
  cases h with
  | documentStart | feature | background | scenario | endOfDocument =>
      simp [Passing, Event.isStructural]
  | step => simp
  | binding hpending => simp [Passing, Event.isStructural, isResult, hpending]
  | hold hyields | record hyields =>
      cases hyields <;> simp [Passing, Event.isStructural, isResult]
  | write | outline | examples => simp [Passing, Event.isStructural, isResult]

/-- In strict ordering the awaiting step is bound by a binding, and stays bound while it waits. A
new step finds none awaiting. -/
theorem bound_of_accepts (h : Accepts b e b') (hs : b.settings.strict = true) :
    (∃ p, b'.pending = some p ∧ p.glue.isSome = true) ↔
      (b.pending.isSome = true ∧ ∃ glue, e = .binding glue) ∨
        ((∃ p, b.pending = some p ∧ p.glue.isSome = true) ∧ Passing e) := by
  cases h with
  | documentStart | feature | background | scenario | endOfDocument =>
      simp [Passing, Event.isStructural]
  | step _ hready => simp [hready hs]
  | binding hpending => simp [hpending]
  | hold hyields | record hyields =>
      cases hyields <;> simp [Passing, Event.isStructural, isResult]
  | write | outline | examples => simp [Passing, Event.isStructural, isResult]

/-- The store never refuses behind an accepted event either. -/
theorem store_of_accepts (h : Accepts b e b') (hb : NeverRefuses b.store) :
    NeverRefuses b'.store := by
  cases h with
  | hold hyields | record hyields =>
      cases hyields with
      | result | before | after => exact hb
      | @embedding mimeType data _ _ hoffer =>
          have hnext := hb.offer mimeType data
          rwa [hoffer] at hnext
  | _ => exact hb

/-- An accepted event leaves the settings. -/
theorem settings_of_accepts (h : Accepts b e b') : b'.settings = b.settings := by
  cases h with
  | hold hyields | record hyields => cases hyields <;> rfl
  | _ => rfl

/-- A builder keeps track of the events it accepts. -/
theorem Tracks.concat (h : Tracks before b) (he : Accepts b e b') : Tracks (before ++ [e]) b' where
  anchored := he.anchored h.anchored
  context := by
    rw [context_of_accepts he, lastStructural?, last?_concat, h.context]
    split <;> rfl
  feature := by rw [feature?_of_accepts he, featureOpen_concat, h.feature]
  pending := by rw [pending_of_accepts he, stepOpen_concat, h.pending]
  bound := fun hs => by
    rw [settings_of_accepts he] at hs
    rw [bound_of_accepts he hs, stepBound_concat, h.pending, h.bound hs]
  store := store_of_accepts he h.store

/-! ## Whole streams -/

/-- A fresh builder keeps track of every list it accepts. -/
theorem tracks_processAll (settings : Settings) {store : σ} (hstore : NeverRefuses store)
    (events : List Event) (h : ((Builder.new settings store).processAll events).error = none) :
    Tracks events ((Builder.new settings store).processAll events).builder := by
  induction events using List.reverseRecOn with
  | nil => exact tracks_new settings hstore
  | append_singleton before e ih =>
      rw [Builder.error_processAll_concat] at h
      rw [Builder.builder_processAll_concat h.1]
      exact (ih h.1).concat (Builder.accepts_process h.2)

/-- A run keeps the settings. -/
theorem settings_processAll (b : Builder σ) (events : List Event)
    (h : (b.processAll events).error = none) :
    (b.processAll events).builder.settings = b.settings := by
  -- along the prefixes, as `error_processAll_concat` splits off the last event
  induction events using List.reverseRecOn with
  | nil => rfl
  | append_singleton before e ih =>
      rw [Builder.error_processAll_concat] at h
      rw [Builder.builder_processAll_concat h.1,
        settings_of_accepts (Builder.accepts_process h.2), ih h.1]

/-- A shelf takes everything. -/
theorem neverRefuses_shelf (store : Shelf) : NeverRefuses store := fun _ _ _ => ⟨_, rfl⟩

/-- A fresh builder whose store refuses nothing accepts a list of events exactly when each of them
is legal after those before it. -/
theorem error_processAll_eq_none_iff (settings : Settings) {store : σ} (hstore : NeverRefuses store)
    (events : List Event) :
    ((Builder.new settings store).processAll events).error = none ↔
      Conforms settings.strict events := by
  induction events using List.reverseRecOn with
  | nil => exact ⟨fun _ => conforms_nil _, fun _ => rfl⟩
  | append_singleton before e ih =>
      -- the last event is judged by a builder that tracks the others
      have hlast : ((Builder.new settings store).processAll before).error = none →
          ((((Builder.new settings store).processAll before).builder.process e).error = none ↔
            Legal settings.strict before e) := by
        intro h
        rw [(tracks_processAll settings hstore before h).error_process_iff,
          settings_processAll _ _ h]
        rfl
      rw [Builder.error_processAll_concat, conforms_concat, and_congr_right hlast, ih]

/-- A step that overtakes an open one is legal in lenient ordering alone. -/
theorem conforms_overtaken_step :
    let events : List Event :=
      [.documentStart "a.feature", .feature {}, .background {}, .step {}, .binding {},
        .result { outcome := .passed }, .scenario {}, .step {}, .write "", .step {}, .endOfDocument]
    NeverRefuses ({} : Shelf) ∧ Conforms false events ∧ ¬ Conforms true events := by
  intro events
  have hstore := neverRefuses_shelf {}
  refine ⟨hstore, ?_, fun h => ?_⟩
  · exact (error_processAll_eq_none_iff { strict := false } hstore events).mp (by decide +kernel)
  · have haccepted := (error_processAll_eq_none_iff { strict := true } hstore events).mpr h
    exact absurd haccepted (by decide +kernel)

end ScenarioResults.Stream
