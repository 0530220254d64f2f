import ScenarioResults.Proofs.Builder.Continuing

/-!
# Refused events

`Accepts` says what a builder makes of an event that it accepts; `Refuses` is its counterpart for
the events that it refuses. It lists each cause with what is left of the builder, which is the
builder itself but for two of them: a step that a structural event overtakes is given up in strict
ordering, and a store that refuses a payload may have changed.

An anchored builder refuses for a listed cause alone (`refuses_react`), so before it has taken
anything out of its state. A fresh builder stays anchored whatever it is fed and whatever tree it
started from (`Running.anchored`), so a refused event leaves it as it was: `process_of_refused`.
-/

namespace ScenarioResults.Builder

variable {σ : Type} {b b' : Builder σ} {e : Event} {error : BuildError}

/-- What the event needs is there: an open feature, an open background or scenario, or a step that
awaits its result. -/
def Fits (b : Builder σ) : Event → Prop
  | .background _ | .scenario _ => b.opened.feature?.isSome = true
  | .step _ | .before .. | .after .. | .embedding .. => b.takesSteps = true
  | .binding _ | .result _ => b.pending.isSome = true
  | _ => True

/-- Why a builder refuses an event, and what is left of it. -/
inductive Refuses [AttachmentStore σ] (b : Builder σ) : Event → BuildError → Builder σ → Prop
  | misfit {e : Event} (hmisfit : ¬ b.Fits e) :
      Refuses b e (.unexpectedEvent e.kind b.context) b
  | outOfOrder {uri pending : String} (hopen : b.opened.uri? = some pending) :
      Refuses b (.documentStart uri) (.outOfOrderDocument pending uri) b
  | nested {header : BackgroundHeader} (hopen : b.opened.background?.isSome = true) :
      Refuses b (.background header) (.nestedBackground header.name) b
  | unresolved {e : Event} {p : PendingStep} (hstructural : e.isStructural = true)
      (hpending : b.pending = some p) (hstrict : b.settings.strict = true) :
      Refuses b e (.unresolvedStep p.step.name e.kind) { b with pending := none }
  | duplicateStep {header : StepHeader} {p : PendingStep} (hpending : b.pending = some p)
      (hstrict : b.settings.strict = true) :
      Refuses b (.step header) (.duplicateStep p.step.name header.name) b
  | duplicateBinding {glue : Glue} {p : PendingStep} (hpending : b.pending = some p)
      (hglue : p.glue.isSome = true) (hstrict : b.settings.strict = true) :
      Refuses b (.binding glue) (.duplicateBinding (glue.location.getD "")) b
  | attachment {mimeType : String} {data : Bytes} {fault : StoreFault} {store : σ}
      (hopen : b.takesSteps = true)
      (hoffer : AttachmentStore.offer b.store mimeType data = (.error fault, store)) :
      Refuses b (.embedding mimeType data) (.attachmentRefused mimeType fault) { b with store }
  | malformed {fault : SyntaxFault} : Refuses b (.syntaxError fault) (.malformed fault) b

/-! ## Refused parts -/

/-- A sequence whose second part accepts is refused by its first part. -/
theorem andThen_of_error {r : Reaction σ} {next : Builder σ → Reaction σ}
    (hnext : (next r.builder).error = none) (h : (r.andThen next).error = some error) :
    r.error = some error ∧ r.andThen next = r := by
  cases hr : r.error with
  | none => simp [Reaction.andThen, hr, hnext] at h
  | some first =>
      have hsame : r.andThen next = r := by simp [Reaction.andThen, hr]
      exact ⟨by rw [← h, hsame, hr], hsame⟩

/-- An item finds its place where the handles of the builder are good. -/
theorem error_place_of_takesSteps (hb : b.Anchored) (hopen : b.takesSteps = true) (kind : EventKind)
    (item : Item) : (b.place kind item).error = none := by
  rw [error_place]
  rcases takesSteps_iff.mp hopen with hheld | ⟨id, hid⟩
  · exact Or.inl hheld
  · exact Or.inr ⟨id, hid, hb.scenario id hid⟩

/-- Where neither a background nor a scenario is open, an item is turned away. -/
theorem place_of_not_takesSteps (hopen : ¬ b.takesSteps = true) (kind : EventKind) (item : Item) :
    b.place kind item = b.unexpected kind := by
  unfold place onScenario
  cases h : b.opened with
  | idle | uriSeen | inFeature => rfl
  | inBackground i background held =>
      exact absurd (takesSteps_iff.mpr (Or.inl ⟨i, background, held, h⟩)) hopen
  | inScenario id => exact absurd (takesSteps_iff.mpr (Or.inr ⟨id, h⟩)) hopen

section Process

variable [AttachmentStore σ]

/-- Only in strict ordering is the awaiting step in the way of a structural event. -/
theorem refuses_dropPending (he : e.isStructural = true)
    (h : (b.dropPending e.kind).error = some error) :
    ∃ b', Refuses b e error b' ∧ b.dropPending e.kind = b'.refuse error := by
  unfold dropPending at h ⊢
  cases hpending : b.pending with
  | none => simp [hpending, accept] at h
  | some p =>
      by_cases hstrict : b.settings.strict = true
      · simp only [hpending, hstrict, if_true] at h ⊢
        obtain rfl : _ = error := Option.some.inj h
        exact ⟨_, .unresolved he hpending hstrict, rfl⟩
      · simp [hpending, hstrict, accept] at h

/-- Leaving a context is refused only for a step that awaits its result in strict ordering. -/
theorem refuses_leave (he : e.isStructural = true) (h : (b.leave e.kind).error = some error) :
    ∃ b', Refuses b e error b' ∧ b.leave e.kind = b'.refuse error := by
  obtain ⟨hdrop, hsame⟩ := andThen_of_error rfl h
  rw [leave, hsame]
  exact refuses_dropPending he hdrop

/-! ## The causes are complete -/

/-- Causes and remains of a refused document. -/
theorem refuses_documentStart {uri : String} (h : (b.documentStart uri).error = some error) :
    ∃ b', Refuses b (.documentStart uri) error b' ∧ b.documentStart uri = b'.refuse error := by
  unfold documentStart at h ⊢
  cases hopen : b.opened.uri? with
  | some pending =>
      rw [hopen] at h
      obtain rfl : _ = error := Option.some.inj h
      exact ⟨b, .outOfOrder hopen, rfl⟩
  | none =>
      rw [hopen] at h
      -- past the guard the event is refused only by the step that awaits its result
      obtain ⟨hleave, hsame⟩ := andThen_of_error rfl h
      dsimp only
      rw [hsame]
      exact refuses_leave rfl hleave

/-- Causes and remains of a refused feature. -/
theorem refuses_feature {header : Header} (h : (b.feature header).error = some error) :
    ∃ b', Refuses b (.feature header) error b' ∧ b.feature header = b'.refuse error := by
  obtain ⟨hleave, hsame⟩ := andThen_of_error rfl h
  rw [feature, hsame]
  exact refuses_leave rfl hleave

/-- Causes and remains of a refused background. -/
theorem refuses_background {header : BackgroundHeader}
    (h : (b.background header).error = some error) :
    ∃ b', Refuses b (.background header) error b' ∧ b.background header = b'.refuse error := by
  unfold background at h ⊢
  by_cases hopen : b.opened.background?.isSome = true
  · rw [if_pos hopen] at h ⊢
    obtain rfl : _ = error := Option.some.inj h
    exact ⟨b, .nested hopen, rfl⟩
  · rw [if_neg hopen] at h ⊢
    cases hfeature : b.opened.feature? with
    | none =>
        rw [hfeature] at h
        obtain rfl : _ = error := Option.some.inj h
        exact ⟨b, .misfit (by simp [Fits, hfeature]), rfl⟩
    | some i =>
        rw [hfeature] at h
        obtain ⟨hleave, hsame⟩ := andThen_of_error rfl h
        dsimp only
        rw [hsame]
        exact refuses_leave rfl hleave

/-- The open feature exists, so nothing is refused once the awaiting step is out of the way. -/
theorem refuses_scenario (hb : b.Anchored) {header : Header}
    (h : (b.scenario header).error = some error) :
    ∃ b', Refuses b (.scenario header) error b' ∧ b.scenario header = b'.refuse error := by
  unfold scenario at h ⊢
  cases hfeature : b.opened.feature? with
  | none =>
      rw [hfeature] at h
      obtain rfl : _ = error := Option.some.inj h
      exact ⟨b, .misfit (by simp [Fits, hfeature]), rfl⟩
  | some i =>
      -- the late return for a missing feature is not reached
      obtain ⟨owner, howner⟩ := Option.isSome_iff_exists.mp (hb.feature i hfeature)
      rw [hfeature] at h
      obtain ⟨hdrop, hsame⟩ := andThen_of_error (by rw [builder_dropPending, howner]; rfl) h
      dsimp only
      rw [hsame]
      exact refuses_dropPending rfl hdrop

/-- Causes and remains of a refused step. -/
theorem refuses_step {header : StepHeader} (h : (b.step header).error = some error) :
    ∃ b', Refuses b (.step header) error b' ∧ b.step header = b'.refuse error := by
  unfold step at h ⊢
  by_cases hopen : b.takesSteps = true
  · rw [if_pos hopen] at h ⊢
    cases hpending : b.pending with
    | none => simp [hpending, accept] at h
    | some p =>
        by_cases hstrict : b.settings.strict = true
        · simp only [hpending, hstrict, if_true] at h ⊢
          obtain rfl : _ = error := Option.some.inj h
          exact ⟨b, .duplicateStep hpending hstrict, rfl⟩
        · simp [hpending, hstrict, accept] at h
  · rw [if_neg hopen] at h ⊢
    obtain rfl : _ = error := Option.some.inj h
    exact ⟨b, .misfit hopen, rfl⟩

/-- Causes and remains of a refused binding. -/
theorem refuses_binding {glue : Glue} (h : (b.binding glue).error = some error) :
    ∃ b', Refuses b (.binding glue) error b' ∧ b.binding glue = b'.refuse error := by
  unfold binding at h ⊢
  cases hpending : b.pending with
  | none =>
      rw [hpending] at h
      obtain rfl : _ = error := Option.some.inj h
      exact ⟨b, .misfit (by simp [Fits, hpending]), rfl⟩
  | some p =>
      cases hglue : p.glue with
      | none => simp [hpending, hglue, accept] at h
      | some old =>
          by_cases hstrict : b.settings.strict = true
          · simp only [hpending, hglue, hstrict, Option.isNone_some, Bool.false_eq_true, if_true,
              if_false] at h ⊢
            obtain rfl : _ = error := Option.some.inj h
            exact ⟨b, .duplicateBinding hpending (by simp [hglue]) hstrict, rfl⟩
          · simp [hpending, hglue, hstrict, accept] at h

/-- A step waits only where it can be put down, so a result is refused without one alone. -/
theorem refuses_result (hb : b.Anchored) {verdict : Verdict}
    (h : (b.result verdict).error = some error) :
    ∃ b', Refuses b (.result verdict) error b' ∧ b.result verdict = b'.refuse error := by
  rw [result_eq_place] at h ⊢
  cases hpending : b.pending with
  | none =>
      rw [hpending] at h
      obtain rfl : _ = error := Option.some.inj h
      exact ⟨b, .misfit (by simp [Fits, hpending]), rfl⟩
  | some p =>
      have hopen : b.takesSteps = true := hb.pending (by simp [hpending])
      have hb' : ({ b with pending := none } : Builder σ).Anchored :=
        ⟨hb.feature, hb.scenario, fun h => by simp at h⟩
      rw [hpending] at h
      dsimp only at h
      rw [error_place_of_takesSteps hb' hopen] at h
      exact absurd h (by simp)

/-- Causes and remains of a refused hook, which is placed as an item. -/
theorem refuses_hook (hb : b.Anchored) {item : Item} (hfits : b.Fits e ↔ b.takesSteps = true)
    (h : (b.place e.kind item).error = some error) :
    ∃ b', Refuses b e error b' ∧ b.place e.kind item = b'.refuse error := by
  by_cases hopen : b.takesSteps = true
  · simp [error_place_of_takesSteps hb hopen] at h
  · rw [place_of_not_takesSteps hopen] at h ⊢
    obtain rfl : _ = error := Option.some.inj h
    exact ⟨b, .misfit (hfits.not.mpr hopen), rfl⟩

/-- Once its payload is stored, an embedding finds its place. -/
theorem refuses_embedding (hb : b.Anchored) {mimeType : String} {data : Bytes}
    (h : (b.embedding mimeType data).error = some error) :
    ∃ b', Refuses b (.embedding mimeType data) error b' ∧
      b.embedding mimeType data = b'.refuse error := by
  rw [embedding_eq_place] at h ⊢
  by_cases hopen : b.takesSteps = true
  · rw [if_pos hopen] at h ⊢
    rcases hoffer : AttachmentStore.offer b.store mimeType data with ⟨fault | filename, store⟩
    · rw [hoffer] at h
      obtain rfl : _ = error := Option.some.inj h
      -- the store refuses, and the builder keeps the store as the refusal leaves it
      exact ⟨_, .attachment hopen hoffer, rfl⟩
    · have hb' : ({ b with store } : Builder σ).Anchored := ⟨hb.feature, hb.scenario, hb.pending⟩
      rw [hoffer] at h
      dsimp only at h
      rw [error_place_of_takesSteps hb' hopen] at h
      exact absurd h (by simp)
  · rw [if_neg hopen] at h ⊢
    obtain rfl : _ = error := Option.some.inj h
    exact ⟨b, .misfit hopen, rfl⟩

/-- An anchored builder refuses an event for one of the listed causes, and tells nothing else. -/
theorem refuses_react (hb : b.Anchored) (h : (b.react e).error = some error) :
    ∃ b', Refuses b e error b' ∧ b.react e = b'.refuse error := by
  cases e with
  | documentStart => exact refuses_documentStart h
  | feature => exact refuses_feature h
  | background => exact refuses_background h
  | scenario => exact refuses_scenario hb h
  | step => exact refuses_step h
  | binding => exact refuses_binding h
  | result => exact refuses_result hb h
  | before =>
      rw [react, before_eq_place] at h ⊢
      exact refuses_hook hb Iff.rfl h
  | after =>
      rw [react, after_eq_place] at h ⊢
      exact refuses_hook hb Iff.rfl h
  | embedding => exact refuses_embedding hb h
  | write | outline | examples | endOfDocument => simp [react, accept, endOfDocument] at h
  | syntaxError =>
      obtain rfl : _ = error := Option.some.inj h
      exact ⟨b, .malformed, rfl⟩

/-- What is left of an anchored builder that refuses an event. -/
theorem refuses_process (hb : b.Anchored) (h : (b.process e).error = some error) :
    Refuses b e error (b.process e).builder := by
  obtain ⟨b', hrefuses, hreact⟩ := refuses_react hb h
  rw [builder_process, hreact]
  exact hrefuses

/-! ## What is accepted for certain -/

/-- An event that has no cause to be refused is accepted. -/
theorem error_process_of_not_refuses (hb : b.Anchored)
    (h : ∀ error b', ¬ Refuses b e error b') : (b.process e).error = none := by
  cases herror : (b.process e).error with
  | none => rfl
  | some error => exact absurd (refuses_process hb herror) (h _ _)

/-- A scenario is accepted in an open feature, unless a step is in the way in strict ordering. -/
theorem error_scenario_iff (hb : b.Anchored) (header : Header) :
    (b.process (.scenario header)).error = none ↔ b.opened.feature?.isSome = true ∧ b.Ready := by
  constructor
  · intro h
    -- one way by what an accepted step requires, the other by what a refused one says
    have haccepts := accepts_process h
    generalize (b.process (.scenario header)).builder = b' at haccepts
    cases haccepts with
    | scenario hfeature _ hready => exact ⟨by simp [hfeature], hready⟩
    | hold hyields | record hyields => cases hyields
  · rintro ⟨hfeature, hready⟩
    refine error_process_of_not_refuses hb fun error b' hrefuses => ?_
    cases hrefuses with
    | misfit hmisfit => exact hmisfit hfeature
    | unresolved _ hpending hstrict => simp [hready hstrict] at hpending

/-- A result is accepted exactly when a step awaits it. -/
theorem error_result_iff (hb : b.Anchored) (verdict : Verdict) :
    (b.process (.result verdict)).error = none ↔ b.pending.isSome = true := by
  constructor
  · intro h
    have haccepts := accepts_process h
    generalize (b.process (.result verdict)).builder = b' at haccepts
    cases haccepts with
    | hold hyields | record hyields =>
        cases hyields with
        | result hpending => simp [hpending]
  · intro hpending
    refine error_process_of_not_refuses hb fun error b' hrefuses => ?_
    cases hrefuses with
    | misfit hmisfit => exact hmisfit hpending
    | unresolved hstructural => simp [Event.isStructural] at hstructural

/-- An embedding is accepted in an open background or scenario whose store takes the payload. -/
theorem error_embedding_iff (hb : b.Anchored) (mimeType : String) (data : Bytes) :
    (b.process (.embedding mimeType data)).error = none ↔
      b.takesSteps = true ∧ ∃ filename, (AttachmentStore.offer b.store mimeType data).1 =
        .ok filename := by
  constructor
  · intro h
    have haccepts := accepts_process h
    generalize (b.process (.embedding mimeType data)).builder = b' at haccepts
    cases haccepts with
    | hold hyields hopen =>
        cases hyields with
        | embedding hoffer =>
            exact ⟨takesSteps_iff.mpr (Or.inl ⟨_, _, _, hopen⟩), _, congrArg Prod.fst hoffer⟩
    | record hyields hopen =>
        cases hyields with
        | embedding hoffer =>
            exact ⟨takesSteps_iff.mpr (Or.inr ⟨_, hopen⟩), _, congrArg Prod.fst hoffer⟩
  · rintro ⟨hopen, filename, htaken⟩
    refine error_process_of_not_refuses hb fun error b' hrefuses => ?_
    cases hrefuses with
    | misfit hmisfit => exact hmisfit hopen
    | unresolved hstructural => simp [Event.isStructural] at hstructural
    | attachment _ hoffer => simp [hoffer] at htaken

/-! ## Running builders -/

/-- A refused event keeps the handles of a builder good. -/
theorem Refuses.anchored (h : Refuses b e error b') (hb : b.Anchored) : b'.Anchored := by
  cases h with
  | unresolved => exact ⟨hb.feature, hb.scenario, fun h => by simp at h⟩
  | attachment => exact ⟨hb.feature, hb.scenario, hb.pending⟩
  | misfit | outOfOrder | nested | duplicateStep | duplicateBinding | malformed => exact hb

/-- A builder that started afresh, if need be from a tree of earlier results, and has been fed
events since, each of them accepted or refused. -/
inductive Running : Builder σ → Prop
  | new (settings : Settings) (store : σ) : Running (Builder.new settings store)
  | continuing (settings : Settings) (store : σ) (tree : Tree) :
      Running ((Builder.new settings store).continuing tree)
  | process {b : Builder σ} (e : Event) (h : Running b) : Running (b.process e).builder

/-- A builder stays anchored whether it accepts an event or not. -/
theorem anchored_process (hb : b.Anchored) (e : Event) : (b.process e).builder.Anchored := by
  cases herror : (b.process e).error with
  | none => exact (accepts_process herror).anchored hb
  | some error => exact (refuses_process hb herror).anchored hb

/-- The handles of a running builder are good. -/
theorem Running.anchored (h : b.Running) : b.Anchored := by
  induction h with
  | new settings store => exact anchored_new settings store
  | continuing => exact anchored_of_idle rfl rfl
  | process e _ ih => exact anchored_process ih e

/-- Feeding events to a running builder leaves it running. -/
theorem Running.feed (h : b.Running) (events : List Event) : (b.feed events).Running := by
  induction events generalizing b with
  | nil => exact h
  | cons e events ih => exact ih (.process e h)

/-- The store is still the same after it has refused a payload. -/
def Steady (store : σ) : Prop :=
  ∀ mimeType data fault store',
    AttachmentStore.offer store mimeType data = (.error fault, store') → store' = store

/-- An event that a running builder refuses leaves it as it was, apart from an awaiting step that a
structural event could not wait for. So a scenario is refused before the open context is taken, a
result before the awaiting step is taken, and an embedding before its payload is stored. -/
theorem process_of_refused (h : b.Running) (hstore : Steady b.store) :
    (∀ e error, (b.process e).error = some error →
        (∀ step kind, error ≠ .unresolvedStep step kind) → (b.process e).builder = b) ∧
      (∀ e step kind, (b.process e).error = some (.unresolvedStep step kind) →
        (b.process e).builder = { b with pending := none }) ∧
      (∀ header, (b.process (.scenario header)).error = none ↔
        b.opened.feature?.isSome = true ∧ b.Ready) ∧
      (∀ verdict, (b.process (.result verdict)).error = none ↔ b.pending.isSome = true) ∧
      ∀ mimeType data, (b.process (.embedding mimeType data)).error = none ↔
        b.takesSteps = true ∧ ∃ filename, (AttachmentStore.offer b.store mimeType data).1 =
          .ok filename := by
  have hb := h.anchored
  refine ⟨fun e error herror hne => ?_, fun e step kind herror => ?_, error_scenario_iff hb,
    error_result_iff hb, error_embedding_iff hb⟩
  · have hrefuses := refuses_process hb herror
    generalize (b.process e).builder = b' at hrefuses
    cases hrefuses with
    | misfit | outOfOrder | nested | duplicateStep | duplicateBinding | malformed => rfl
    | unresolved => exact absurd rfl (hne _ _)
    | attachment _ hoffer => rw [hstore _ _ _ _ hoffer]
  · have hrefuses := refuses_process hb herror
    generalize (b.process e).builder = b' at hrefuses
    cases hrefuses with
    | unresolved => rfl

end Process

/-- A shelf with room for so many attachments; once it is full it refuses the next one. -/
structure Cabinet where
  shelf : Shelf := {}
  room : ℕ
  deriving DecidableEq

instance : AttachmentStore Cabinet where
  offer c mimeType data :=
    if c.shelf.stored.length < c.room then
      let (filename, shelf) := c.shelf.put mimeType data
      (.ok filename, { c with shelf })
    else (.error (.unwritable "no room"), c)

/-- A cabinet that refuses an attachment stays as it was. -/
theorem steady_cabinet (c : Cabinet) : Steady c := by
  intro mimeType data fault store' hoffer
  by_cases hroom : c.shelf.stored.length < c.room
  · simp [AttachmentStore.offer, hroom] at hoffer
  · simp only [AttachmentStore.offer, hroom, if_false, Prod.mk.injEq] at hoffer
    exact hoffer.2.symm

/-- A background holds a hook and an attachment, and a step is bound in it. The next attachment
finds no room, and a scenario comes too early. -/
theorem process_of_refused_full_cabinet :
    let b := ((Builder.new {} ({ room := 1 } : Cabinet)).continuing {}).feed
      [.feature {}, .background {}, .before {} { outcome := .passed }, .step {}, .binding {},
        .embedding "text/plain" []]
    Running b ∧ Steady b.store ∧
      ((b.process (.embedding "text/plain" [])).error =
          some (.attachmentRefused "text/plain" (.unwritable "no room")) ∧
        (b.process (.embedding "text/plain" [])).builder = b) ∧
      (b.process (.scenario {})).error = some (.unresolvedStep "" .scenario) ∧
        (b.process (.scenario {})).builder = { b with pending := none } := by
  intro b
  have hrunning : Running b := (Running.continuing _ _ _).feed _
  have hsteady := steady_cabinet b.store
  have hfull : (b.process (.embedding "text/plain" [])).error =
      some (.attachmentRefused "text/plain" (.unwritable "no room")) := by decide +kernel
  have hearly : (b.process (.scenario {})).error = some (.unresolvedStep "" .scenario) := by
    decide +kernel
  obtain ⟨hsame, hgiven, -⟩ := process_of_refused hrunning hsteady
  exact ⟨hrunning, hsteady, ⟨hfull, hsame _ _ hfull (by simp)⟩, hearly, hgiven _ _ _ hearly⟩

end ScenarioResults.Builder
