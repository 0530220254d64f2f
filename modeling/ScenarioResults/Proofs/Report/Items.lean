import ScenarioResults.Proofs.Report.Conforming

/-!
# Payloads, hooks and steps in the stream of a report

What the events between two openers carry, read part by part: the payloads of an element come in the
order of its record, the setup and teardown hooks are those of the record, and the steps that are
resolved are the ones with a result.
-/

namespace ScenarioResults.Report

open ScenarioResults.Stream

variable {decode : Decoder}

/-! ## Payloads -/

/-- Output offers the payloads of its attachments. -/
theorem offers_outputStream (output : List String) (embeddings : List EmbeddingRecord) :
    offers (outputStream decode output embeddings) =
      embeddings.map (EmbeddingRecord.payload decode) := by
  simp [outputStream, offers, List.filterMap_map, Function.comp_def, offer?]

/-- Hooks offer the payloads of their attachments, whichever way they are reported. -/
theorem offers_hooks {make : Glue → Verdict → Event} (hmake : ∀ glue v, offer? (make glue v) = none)
    (hooks : List HookRecord) :
    offers (hooks.flatMap (HookRecord.stream decode make)) =
      (hooks.flatMap HookRecord.embeddings).map (EmbeddingRecord.payload decode) := by
  have hstream : ∀ h : HookRecord,
      offers (h.stream decode make) = h.embeddings.map (EmbeddingRecord.payload decode) := by
    intro h
    rw [HookRecord.stream, offers, List.filterMap_cons_none (hmake _ _)]
    exact offers_outputStream h.output h.embeddings
  rw [offers_flatMap, List.map_flatMap]
  simp only [hstream]

/-- A step offers the payloads of its attachments. -/
theorem StepRecord.offers_stream (s : StepRecord) :
    offers (s.stream decode) = s.embeddings.map (EmbeddingRecord.payload decode) := by
  have hbinding : offers s.bindingStream = [] := by
    unfold bindingStream
    cases s.glue <;> rfl
  have hresult : offers s.resultStream = [] := by
    unfold resultStream
    cases s.result <;> rfl
  rw [stream, offers_append, offers_append, offers_append, hbinding, hresult, offers_outputStream]
  rfl

/-- Steps offer the payloads of their attachments in order. -/
theorem offers_steps (steps : List StepRecord) :
    offers (steps.flatMap (StepRecord.stream decode)) =
      (steps.flatMap StepRecord.embeddings).map (EmbeddingRecord.payload decode) := by
  rw [offers_flatMap, List.map_flatMap]
  simp only [StepRecord.offers_stream]

/-- The body of an element offers its payloads. -/
theorem ElementRecord.offers_bodyStream (e : ElementRecord) :
    offers (e.bodyStream decode) = e.payloads decode := by
  rw [bodyStream, offers_append, offers_append, offers_hooks (fun _ _ => rfl), offers_steps,
    offers_hooks (fun _ _ => rfl), payloads, List.map_append, List.map_append]

/-- Elements offer the payloads of those that were executed. -/
theorem offers_elements (elements : List ElementRecord) :
    offers (elements.flatMap (ElementRecord.stream decode)) =
      (executed elements).flatMap (ElementRecord.payloads decode) := by
  induction elements with
  | nil => rfl
  | cons e elements ih =>
      rw [List.flatMap_cons, offers_append, ih]
      by_cases houtline : e.isOutline = true
      · simp [ElementRecord.stream, executed_cons, houtline, offers, offer?]
      · have hexecuted : e.isOutline = false := by simpa using houtline
        have hopener : offers [e.opener] = [] := by
          unfold ElementRecord.opener
          split <;> rfl
        rw [ElementRecord.stream_of_executed hexecuted, offers_append, hopener, e.offers_bodyStream]
        simp [executed_cons, hexecuted]

/-- A feature offers its payloads. -/
theorem FeatureRecord.offers_stream (uri : String) (f : FeatureRecord) :
    offers (f.stream decode uri) = f.payloads decode := by
  have hsplit : f.stream decode uri = [.documentStart (f.uri.getD uri), .feature f.header] ++
      (f.elements.flatMap (ElementRecord.stream decode) ++ [.endOfDocument]) := rfl
  rw [hsplit, offers_append, offers_append, offers_elements]
  exact List.append_nil _

/-- A report offers the payloads of its features in order. -/
theorem offers_stream (uri : String) (features : List FeatureRecord) :
    offers (stream decode uri features) = features.flatMap (FeatureRecord.payloads decode) := by
  rw [stream, offers_flatMap]
  simp only [FeatureRecord.offers_stream]

/-! ## Hooks -/

/-- The event reports no hook. -/
def IsHookless (e : Event) : Prop := setup? e = none ∧ teardown? e = none

/-- Output reports no hook. -/
theorem isHookless_of_mem_outputStream {output : List String} {embeddings : List EmbeddingRecord} :
    ∀ x ∈ outputStream decode output embeddings, IsHookless x := by
  intro x hx
  rcases List.mem_append.mp hx with hx | hx
  · obtain ⟨text, -, rfl⟩ := List.mem_map.mp hx
    exact ⟨rfl, rfl⟩
  · obtain ⟨embedding, -, rfl⟩ := List.mem_map.mp hx
    exact ⟨rfl, rfl⟩

/-- Steps report no hook. -/
theorem isHookless_of_mem_steps {steps : List StepRecord} :
    ∀ x ∈ steps.flatMap (StepRecord.stream decode), IsHookless x := by
  intro x hx
  obtain ⟨s, -, hx⟩ := List.mem_flatMap.mp hx
  simp only [StepRecord.stream, StepRecord.bindingStream, StepRecord.resultStream,
    List.mem_append, List.mem_singleton, Option.mem_toList, Option.map_eq_some_iff] at hx
  rcases hx with ((rfl | ⟨-, -, rfl⟩) | ⟨-, -, rfl⟩) | hx
  · exact ⟨rfl, rfl⟩
  · exact ⟨rfl, rfl⟩
  · exact ⟨rfl, rfl⟩
  · exact isHookless_of_mem_outputStream x hx

/-- Of hooks and their output only the hooks are read. -/
theorem filterMap_hooks {make : Glue → Verdict → Event} {f : Event → Option Hook}
    (hf : ∀ x, IsHookless x → f x = none) (hooks : List HookRecord) :
    (hooks.flatMap (HookRecord.stream decode make)).filterMap f =
      hooks.filterMap fun h => f (make (glueOf h.glue) h.result.stated) := by
  induction hooks with
  | nil => rfl
  | cons h hooks ih =>
      have houtput : (outputStream decode h.output h.embeddings).filterMap f = [] :=
        List.filterMap_eq_nil_iff.mpr fun x hx => hf x (isHookless_of_mem_outputStream x hx)
      rw [List.flatMap_cons, List.filterMap_append, ih, HookRecord.stream, List.filterMap_cons,
        houtput, List.filterMap_cons]
      cases f (make (glueOf h.glue) h.result.stated) <;> rfl

/-- A reading of hooks finds none among steps. -/
theorem filterMap_steps {f : Event → Option Hook} (hf : ∀ x, IsHookless x → f x = none)
    (steps : List StepRecord) : (steps.flatMap (StepRecord.stream decode)).filterMap f = [] :=
  List.filterMap_eq_nil_iff.mpr fun x hx => hf x (isHookless_of_mem_steps x hx)

/-- The setup hooks of a body are those of its element. -/
theorem ElementRecord.setup_bodyStream (e : ElementRecord) :
    (e.bodyStream decode).filterMap setup? = e.before.map HookRecord.told := by
  have hf : ∀ x, IsHookless x → setup? x = none := fun _ h => h.1
  rw [bodyStream, List.filterMap_append, List.filterMap_append, filterMap_hooks hf,
    filterMap_hooks hf, filterMap_steps hf]
  simp [setup?, glueOf, HookRecord.told]

/-- The teardown hooks of a body are those of its element. -/
theorem ElementRecord.teardown_bodyStream (e : ElementRecord) :
    (e.bodyStream decode).filterMap teardown? = e.after.map HookRecord.told := by
  have hf : ∀ x, IsHookless x → teardown? x = none := fun _ h => h.2
  rw [bodyStream, List.filterMap_append, List.filterMap_append, filterMap_hooks hf,
    filterMap_hooks hf, filterMap_steps hf]
  simp [teardown?, glueOf, HookRecord.told]

/-! ## Steps -/

section Store

variable {σ : Type} [AttachmentStore σ] (store : σ)

/-- Asides arrive as asides. -/
theorem isAside_of_mem_arrivals {events : List Event} (h : Asides events) :
    ∀ a ∈ arrivals store events, isAside a.event = true := fun _ ha =>
  h _ (event_mem_of_mem_arrivals store ha)

/-- Behind the declaration and the binding of a step they are the latest ones. -/
theorem StepRecord.latest_bindingStream (s : StepRecord) (earlier : List Arrival) :
    let as := earlier ++ arrivals store ([.step s.header] ++ s.bindingStream)
    latestStep? as = some s.header ∧
      latestGlue? as = s.glue.map fun g => glueOf (some g) := by
  intro as
  have hstep : latestStep? (earlier ++ [{ event := .step s.header }]) = some s.header :=
    latestStep?_concat earlier _
  have hglue : latestGlue? (earlier ++ [{ event := .step s.header }]) = none :=
    latestGlue?_concat_step rfl earlier
  unfold as bindingStream
  cases s.glue with
  | none => exact ⟨hstep, hglue⟩
  | some g =>
      have hlist : earlier ++ arrivals store ([.step s.header] ++ [.binding (glueOf (some g))]) =
          earlier ++ [{ event := .step s.header }] ++
            [{ event := .binding (glueOf (some g)) }] := by
        rw [List.append_assoc]
        rfl
      rw [Option.map_some, Option.toList_some, hlist, latestStep?_concat, latestGlue?_concat rfl]
      exact ⟨hstep, rfl⟩

/-- The events of a step resolve what its record tells, whatever came before. -/
theorem StepRecord.stepsAfter_stream (s : StepRecord) (earlier : List Arrival) :
    stepsAfter earlier (arrivals store (s.stream decode)) = s.told?.toList := by
  have houtput := isAside_of_mem_arrivals (offerAll store
    (offers ([.step s.header] ++ s.bindingStream ++ s.resultStream)))
    (asides_outputStream decode s.output s.embeddings)
  have hdeclared :
      stepsAfter earlier (arrivals store ([.step s.header] ++ s.bindingStream)) = [] := by
    unfold bindingStream
    cases s.glue <;> rfl
  -- the result meets this declaration and this binding, so `earlier` does not matter
  obtain ⟨hstep, hglue⟩ := s.latest_bindingStream store earlier
  rw [stream, arrivals_append, stepsAfter_append, stepsAfter_of_asides houtput, List.append_nil,
    arrivals_append, stepsAfter_append, hdeclared, List.nil_append, resultStream, told?]
  cases s.result with
  | none => rfl
  | some r =>
      simp only [Option.map_some, Option.toList_some, arrivals, receive, stepsAfter, resolved?,
        hstep, hglue, List.append_nil]
      cases s.glue <;> rfl

/-- Steps resolve those among them that were run, whatever came before. -/
theorem stepsAfter_steps (steps : List StepRecord) (earlier : List Arrival) :
    stepsAfter earlier (arrivals store (steps.flatMap (StepRecord.stream decode))) =
      steps.filterMap StepRecord.told? := by
  -- each step leaves another store and other arrivals behind it
  induction steps generalizing store earlier with
  | nil => rfl
  | cons s steps ih =>
      rw [List.flatMap_cons, arrivals_append, stepsAfter_append, s.stepsAfter_stream, ih,
        List.filterMap_cons]
      cases s.told? <;> rfl

/-- A body resolves those steps of its element that were run. -/
theorem ElementRecord.stepsAfter_bodyStream (e : ElementRecord) :
    stepsAfter [] (arrivals store (e.bodyStream decode)) = e.steps.filterMap StepRecord.told? := by
  have hbefore := isAside_of_mem_arrivals store (e.asides_before decode)
  have hafter := fun store : σ => isAside_of_mem_arrivals store (e.asides_after decode)
  rw [bodyStream, arrivals_append, stepsAfter_append, stepsAfter_of_asides (hafter _),
    arrivals_append, stepsAfter_append, stepsAfter_of_asides hbefore, stepsAfter_steps,
    List.nil_append, List.append_nil]

end Store

end ScenarioResults.Report
