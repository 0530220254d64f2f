import Mathlib.Data.List.Chain
import ScenarioResults.Proofs.Report.Stream
import ScenarioResults.Proofs.Stream.Extension

/-!
# Reports that conform

The stream of a report follows the protocol exactly when the elements of each of its features are
orderly: `conformsAfter_stream_iff`.

## Shape of the proof

Level by level, one lemma says when the part may follow the events before it, and others say how the
readings of the trace stand behind it. A feature starts and ends at rest, so features do not depend
on each other; the elements of a feature are followed one by one, as the last of them decides whether
a background or a step is open.
-/

namespace ScenarioResults.Report

open ScenarioResults.Stream

variable {decode : Decoder} {strict : Bool} {before : List Event}

/-! ## Output and hooks -/

variable (decode) in
/-- Output may come at any place where items may. -/
theorem asides_outputStream (output : List String) (embeddings : List EmbeddingRecord) :
    Asides (outputStream decode output embeddings) := by
  intro e he
  rcases List.mem_append.mp he with he | he
  · obtain ⟨text, -, rfl⟩ := List.mem_map.mp he
    rfl
  · obtain ⟨embedding, -, rfl⟩ := List.mem_map.mp he
    rfl

/-- So may hooks with their output. -/
theorem asides_hooks {make : Glue → Verdict → Event}
    (hmake : ∀ glue v, isAside (make glue v) = true) (hooks : List HookRecord) :
    Asides (hooks.flatMap (HookRecord.stream decode make)) := by
  intro e he
  obtain ⟨h, -, he⟩ := List.mem_flatMap.mp he
  rcases List.mem_cons.mp he with rfl | he
  · exact hmake _ _
  · exact asides_outputStream decode h.output h.embeddings e he

/-! ## Steps -/

namespace StepRecord

variable (s : StepRecord)

/-- The declaration of a step opens no context. -/
theorem inner_header : AllInner [.step s.header] := by simp [AllInner, Event.isStructural]

/-- Nor does its binding. -/
theorem inner_bindingStream : AllInner s.bindingStream := by
  unfold bindingStream
  cases s.glue <;> simp [AllInner, Event.isStructural]

/-- Nor does its result. -/
theorem inner_resultStream : AllInner s.resultStream := by
  unfold resultStream
  cases s.result <;> simp [AllInner, Event.isStructural]

/-- No event of a step opens a context. -/
theorem inner_stream : AllInner (s.stream decode) :=
  ((s.inner_header.append s.inner_bindingStream).append s.inner_resultStream).append
    (asides_outputStream decode s.output s.embeddings).inner

/-- A step is open behind its declaration. -/
theorem stepOpen_header : StepOpen (before ++ [.step s.header]) :=
  stepOpen_concat.mpr (Or.inl ⟨_, rfl⟩)

/-- The binding of an open step leaves it open. -/
theorem stepOpen_bindingStream (h : StepOpen before) : StepOpen (before ++ s.bindingStream) := by
  unfold bindingStream
  cases s.glue with
  | none => simpa using h
  | some g => exact stepOpen_concat.mpr (Or.inr ⟨h, rfl, rfl⟩)

/-- An open step stays open without a result. -/
theorem stepOpen_resultStream (h : StepOpen before) :
    StepOpen (before ++ s.resultStream) ↔ s.result = none := by
  unfold resultStream
  cases s.result with
  | none => simpa using h
  | some r =>
      rw [Option.map_some, Option.toList_some, stepOpen_concat]
      simp [Passing, isResult]

/-- A step is open behind its events exactly when it has no result. -/
theorem stepOpen_stream : StepOpen (before ++ s.stream decode) ↔ s.result = none := by
  have hopen : StepOpen (before ++ [.step s.header] ++ s.bindingStream) :=
    s.stepOpen_bindingStream s.stepOpen_header
  simp only [stream, ← List.append_assoc]
  rw [(asides_outputStream decode s.output s.embeddings).stepOpen, s.stepOpen_resultStream hopen]

/-- A binding may follow an open step that, in strict ordering, is not bound yet. -/
theorem conformsAfter_bindingStream (hopen : StepOpen before)
    (hbound : strict = true → ¬ StepBound before) :
    ConformsAfter strict before s.bindingStream := by
  unfold bindingStream
  cases s.glue with
  | none => exact conformsAfter_nil
  | some g => exact conformsAfter_cons.mpr ⟨⟨hopen, hbound⟩, conformsAfter_nil⟩

/-- A result may follow an open step. -/
theorem conformsAfter_resultStream (hopen : StepOpen before) :
    ConformsAfter strict before s.resultStream := by
  unfold resultStream
  cases s.result with
  | none => exact conformsAfter_nil
  | some r => exact conformsAfter_cons.mpr ⟨hopen, conformsAfter_nil⟩

/-- A step may follow where items may, unless in strict ordering another one is open. -/
theorem conformsAfter_stream (hitems : TakesItems before) :
    ConformsAfter strict before (s.stream decode) ↔ (strict = true → ¬ StepOpen before) := by
  simp only [stream, conformsAfter_append, conformsAfter_cons, conformsAfter_nil, and_true,
    ← List.append_assoc]
  refine ⟨fun h => h.1.1.1.2, fun hready => ?_⟩
  have hopen : StepOpen (before ++ [.step s.header]) := s.stepOpen_header
  -- a step that is bound already would be one that was open before
  have hbound : strict = true → ¬ StepBound (before ++ [.step s.header]) := by
    intro hs hbound
    rcases stepBound_concat.mp hbound with ⟨-, glue, hglue⟩ | ⟨hbound, -⟩
    · cases hglue
    · exact hready hs hbound.stepOpen
  have hinner := (s.inner_header.append s.inner_bindingStream).append s.inner_resultStream
  have hafter : TakesItems (before ++ [.step s.header] ++ s.bindingStream ++ s.resultStream) := by
    rw [List.append_assoc, List.append_assoc, ← List.append_assoc [_]]
    exact hinner.takesItems.mpr hitems
  exact ⟨⟨⟨⟨hitems, hready⟩, s.conformsAfter_bindingStream hopen hbound⟩,
    s.conformsAfter_resultStream (s.stepOpen_bindingStream hopen)⟩,
    (asides_outputStream decode s.output s.embeddings).conformsAfter hafter⟩

end StepRecord

/-- Steps may follow one after the other where in strict ordering each but the last is resolved and
none overtakes a step that was open before. -/
theorem conformsAfter_steps (hitems : TakesItems before) (steps : List StepRecord) :
    ConformsAfter strict before (steps.flatMap (StepRecord.stream decode)) ↔
      (strict = true → (StepOpen before → steps = []) ∧ ∀ s ∈ steps.dropLast, s.result.isSome) := by
  -- the condition on `s` turns into the one on open steps for those behind it
  induction steps generalizing before with
  | nil => simp
  | cons s steps ih =>
      rw [List.flatMap_cons, conformsAfter_append, s.conformsAfter_stream hitems,
        ih (s.inner_stream.takesItems.mpr hitems), s.stepOpen_stream, ← forall_and]
      refine forall_congr' fun _ => ?_
      cases steps with
      | nil => simp
      | cons s' steps =>
          rw [List.dropLast_cons_cons, List.forall_mem_cons]
          simp [Option.isSome_iff_ne_none]

/-- Of steps the last one decides whether a step is open behind them. -/
theorem stepOpen_steps (hready : ¬ StepOpen before) (steps : List StepRecord) :
    StepOpen (before ++ steps.flatMap (StepRecord.stream decode)) ↔
      ∃ s ∈ steps.getLast?, s.result = none := by
  -- only the last step matters, so the list is split at its end
  rcases List.eq_nil_or_concat steps with rfl | ⟨earlier, s, rfl⟩
  · simpa using hready
  · rw [List.concat_eq_append, List.flatMap_append, List.flatMap_singleton, ← List.append_assoc,
      s.stepOpen_stream]
    simp

/-! ## Elements -/

namespace ElementRecord

variable (e : ElementRecord)

/-- The last step of the element was not run. -/
def LeavesOpen (e : ElementRecord) : Prop := ∃ s ∈ e.steps.getLast?, s.result = none

/-- The element is a background when its record says so. -/
theorem isBackground_iff : e.isBackground = true ↔ e.kind = "background" := beq_iff_eq

/-- Every step was run when every step but the last was, and the last is not left open. -/
theorem resolved_iff : e.Resolved ↔ e.ResolvedButLast ∧ ¬ e.LeavesOpen := by
  unfold Resolved ResolvedButLast LeavesOpen
  -- the last step, if there is one, is the only one that the two conditions share out
  rcases List.eq_nil_or_concat e.steps with hnil | ⟨earlier, s, hconcat⟩
  · simp [hnil]
  · rw [hconcat, List.concat_eq_append]
    simp [or_imp, forall_and, Option.isSome_iff_ne_none]

variable (decode) in
/-- Setup hooks are asides. -/
theorem asides_before : Asides (e.before.flatMap (HookRecord.stream decode .before)) :=
  asides_hooks (fun _ _ => rfl) e.before

variable (decode) in
/-- Teardown hooks are asides. -/
theorem asides_after : Asides (e.after.flatMap (HookRecord.stream decode .after)) :=
  asides_hooks (fun _ _ => rfl) e.after

/-- No event of a step list opens a context. -/
theorem inner_steps (steps : List StepRecord) :
    AllInner (steps.flatMap (StepRecord.stream decode)) := by
  intro x hx
  obtain ⟨s, -, hx⟩ := List.mem_flatMap.mp hx
  exact s.inner_stream x hx

/-- No event of a body opens a context. -/
theorem inner_bodyStream : AllInner (e.bodyStream decode) :=
  ((e.asides_before decode).inner.append (inner_steps e.steps)).append (e.asides_after decode).inner

/-- The hooks and steps of an element may follow its opener where in strict ordering each step but
the last is resolved. -/
theorem conformsAfter_bodyStream (hitems : TakesItems before) (hready : ¬ StepOpen before) :
    ConformsAfter strict before (e.bodyStream decode) ↔ (strict = true → e.ResolvedButLast) := by
  have hbefore := e.asides_before decode
  have hsteps : TakesItems (before ++ e.before.flatMap (HookRecord.stream decode .before)) :=
    hbefore.inner.takesItems.mpr hitems
  have hafter : TakesItems (before ++ (e.before.flatMap (HookRecord.stream decode .before) ++
      e.steps.flatMap (StepRecord.stream decode))) :=
    (hbefore.inner.append (inner_steps e.steps)).takesItems.mpr hitems
  -- the hooks come freely, so the steps alone decide
  rw [bodyStream, conformsAfter_append, and_iff_left ((e.asides_after decode).conformsAfter hafter),
    conformsAfter_append, and_iff_right (hbefore.conformsAfter hitems),
    conformsAfter_steps hsteps, hbefore.stepOpen]
  simp [hready, ResolvedButLast]

/-- Behind a body a step is open exactly when the element leaves it open. -/
theorem stepOpen_bodyStream (hready : ¬ StepOpen before) :
    StepOpen (before ++ e.bodyStream decode) ↔ e.LeavesOpen := by
  have hready' : ¬ StepOpen (before ++ e.before.flatMap (HookRecord.stream decode .before)) := by
    rwa [(e.asides_before decode).stepOpen]
  rw [bodyStream, ← List.append_assoc, ← List.append_assoc, (e.asides_after decode).stepOpen,
    stepOpen_steps hready', LeavesOpen]

/-! ### Openers -/

/-- The opener of an element is structural, hence the latest structural event behind it. -/
theorem lastStructural?_opener : lastStructural? (before ++ [e.opener]) = some e.opener := by
  have hstructural : e.opener.isStructural = true := by
    unfold opener
    split <;> rfl
  rw [lastStructural?, last?_concat, if_pos hstructural]

/-- Items may follow the opener of an element. -/
theorem takesItems_opener : TakesItems (before ++ [e.opener]) := by
  unfold TakesItems BackgroundOpen
  rw [e.lastStructural?_opener, opener]
  split <;> simp

/-- Behind the opener of an element a background is open when the element is one. -/
theorem backgroundOpen_opener : BackgroundOpen (before ++ [e.opener]) ↔ e.isBackground = true := by
  unfold BackgroundOpen
  rw [e.lastStructural?_opener, opener]
  split <;> next h => simp [h]

/-- The opener of an element leaves the feature open. -/
theorem featureOpen_opener (h : FeatureOpen before) : FeatureOpen (before ++ [e.opener]) := by
  refine featureOpen_concat.mpr (Or.inr ⟨h, ?_⟩)
  unfold opener
  split <;> rfl

/-- No step is open behind the opener of an element. -/
theorem not_stepOpen_opener : ¬ StepOpen (before ++ [e.opener]) := by
  rw [stepOpen_concat]
  unfold opener
  split <;> simp [Passing, Event.isStructural]

/-- In a feature an element may be opened unless it is a second background or, in strict ordering, a
step is open. -/
theorem legal_opener (hfeature : FeatureOpen before) :
    Legal strict before e.opener ↔
      (e.isBackground = true → ¬ BackgroundOpen before) ∧ (strict = true → ¬ StepOpen before) := by
  unfold opener
  split <;> next h => simp [Legal, hfeature, h]

/-! ### Whole elements -/

variable {e}

/-- The events of an element that is no outline are its opener and its body. -/
theorem stream_of_executed (h : e.isOutline = false) :
    e.stream decode = [e.opener] ++ e.bodyStream decode := by
  simp [stream, h]

/-- When an element that is no outline may follow. -/
theorem conformsAfter_stream (h : e.isOutline = false) (hfeature : FeatureOpen before) :
    ConformsAfter strict before (e.stream decode) ↔
      (e.isBackground = true → ¬ BackgroundOpen before) ∧
        (strict = true → ¬ StepOpen before ∧ e.ResolvedButLast) := by
  rw [stream_of_executed h, conformsAfter_append, conformsAfter_cons, e.legal_opener hfeature,
    e.conformsAfter_bodyStream e.takesItems_opener e.not_stepOpen_opener]
  simp only [conformsAfter_nil, and_true, and_assoc, forall_and]

/-- The events of an element leave the feature open. -/
theorem featureOpen_stream (h : FeatureOpen before) : FeatureOpen (before ++ e.stream decode) := by
  unfold stream
  split
  · exact featureOpen_concat.mpr (Or.inr ⟨h, rfl⟩)
  · rw [List.append_cons]
    exact e.inner_bodyStream.featureOpen.mpr (e.featureOpen_opener h)

/-- Behind an element that is no outline a background is open when the element is one. -/
theorem backgroundOpen_stream (h : e.isOutline = false) :
    BackgroundOpen (before ++ e.stream decode) ↔ e.isBackground = true := by
  rw [stream_of_executed h, ← List.append_assoc, e.inner_bodyStream.backgroundOpen,
    e.backgroundOpen_opener]

/-- Behind an element that is no outline a step is open when the element leaves it open. -/
theorem stepOpen_stream (h : e.isOutline = false) :
    StepOpen (before ++ e.stream decode) ↔ e.LeavesOpen := by
  rw [stream_of_executed h, ← List.append_assoc, e.stepOpen_bodyStream e.not_stepOpen_opener]

/-- An outline is an aside. -/
theorem asides_outline (h : e.isOutline = true) : Asides (e.stream decode) := by
  simp [stream, h, Asides, isAside]

/-- An outline may come at any place. -/
theorem conformsAfter_outline (h : e.isOutline = true) :
    ConformsAfter strict before (e.stream decode) := by
  rw [stream, if_pos h]
  exact conformsAfter_cons.mpr ⟨trivial, conformsAfter_nil⟩

end ElementRecord

/-! ## Elements of a feature -/

/-- One element more is in order when it is no second background and, in strict ordering, overtakes
no step of the element before it or of its own. -/
theorem orderly_concat {es : List ElementRecord} {e : ElementRecord} :
    Orderly strict (es ++ [e]) ↔
      Orderly strict es ∧ (e.isBackground = true → ¬ ∃ l ∈ es.getLast?, l.isBackground = true) ∧
        (strict = true → (¬ ∃ l ∈ es.getLast?, l.LeavesOpen) ∧ e.ResolvedButLast) := by
  have hearlier : (∀ x ∈ es, x.Resolved) ↔
      (∀ x ∈ es.dropLast, x.Resolved) ∧ ∀ l ∈ es.getLast?, l.ResolvedButLast ∧ ¬ l.LeavesOpen := by
    rcases List.eq_nil_or_concat es with rfl | ⟨earlier, l, rfl⟩
    · simp
    · rw [List.concat_eq_append, List.forall_mem_append, List.forall_mem_singleton,
        List.dropLast_concat, List.getLast?_concat, l.resolved_iff]
      simp
  constructor
  · intro h
    have hchain := List.isChain_append.mp h.backgrounds
    have hresolved : strict = true → ∀ x ∈ es, x.Resolved := by
      simpa [List.dropLast_concat] using h.earlier
    refine ⟨⟨hchain.1, fun hs => (hearlier.mp (hresolved hs)).1,
      fun hs l hl => ((hearlier.mp (hresolved hs)).2 l hl).1⟩, ?_, fun hs => ⟨?_, ?_⟩⟩
    · rintro he ⟨l, hl, hbackground⟩
      exact hchain.2.2 l hl e (by simp) ⟨l.isBackground_iff.mp hbackground, e.isBackground_iff.mp he⟩
    · rintro ⟨l, hl, hopen⟩
      exact ((hearlier.mp (hresolved hs)).2 l hl).2 hopen
    · exact h.last hs e (by simp)
  · rintro ⟨h, hbackground, hsteps⟩
    refine ⟨List.isChain_append.mpr ⟨h.backgrounds, List.isChain_singleton e, ?_⟩,
      fun hs => ?_, fun hs l hl => ?_⟩
    · intro l hl x hx hboth
      obtain rfl : e = x := by simpa using hx
      exact hbackground (e.isBackground_iff.mpr hboth.2) ⟨l, hl, l.isBackground_iff.mpr hboth.1⟩
    · rw [List.dropLast_concat]
      exact hearlier.mpr ⟨h.earlier hs, fun l hl =>
        ⟨h.last hs l hl, fun hopen => (hsteps hs).1 ⟨l, hl, hopen⟩⟩⟩
    · obtain rfl : e = l := by simpa using hl
      exact (hsteps hs).2

/-- How the trace stands behind elements of a feature, of which `es` are no outlines. -/
structure Behind (es : List ElementRecord) (before : List Event) : Prop where
  feature : FeatureOpen before
  background : BackgroundOpen before ↔ ∃ l ∈ es.getLast?, l.isBackground = true
  step : StepOpen before ↔ ∃ l ∈ es.getLast?, l.LeavesOpen

/-- Behind elements of a feature the last one that is no outline decides what is open. -/
theorem behind_elements (h : Behind [] before) (elements : List ElementRecord) :
    Behind (executed elements) (before ++ elements.flatMap (ElementRecord.stream decode)) := by
  -- from the end, as the last element decides
  induction elements using List.reverseRecOn with
  | nil => simpa using h
  | append_singleton elements e ih =>
      rw [List.flatMap_append, List.flatMap_singleton, ← List.append_assoc, executed_concat]
      by_cases houtline : e.isOutline = true
      · have hasides : Asides (e.stream decode) := ElementRecord.asides_outline houtline
        rw [if_pos houtline]
        exact ⟨hasides.inner.featureOpen.mpr ih.feature,
          hasides.inner.backgroundOpen.trans ih.background, hasides.stepOpen.trans ih.step⟩
      · have hexecuted : e.isOutline = false := by simpa using houtline
        rw [if_neg houtline]
        refine ⟨ElementRecord.featureOpen_stream ih.feature, ?_, ?_⟩
        · rw [ElementRecord.backgroundOpen_stream hexecuted]
          simp
        · rw [ElementRecord.stepOpen_stream hexecuted]
          simp

/-- Elements may follow the header of a feature exactly when they are orderly. -/
theorem conformsAfter_elements (h : Behind [] before) (elements : List ElementRecord) :
    ConformsAfter strict before (elements.flatMap (ElementRecord.stream decode)) ↔
      Orderly strict (executed elements) := by
  -- from the end, to match `orderly_concat`
  induction elements using List.reverseRecOn with
  | nil => exact iff_of_true conformsAfter_nil ⟨List.isChain_nil, by simp, by simp⟩
  | append_singleton elements e ih =>
      rw [List.flatMap_append, List.flatMap_singleton, conformsAfter_append, ih, executed_concat]
      have hbehind : Behind (executed elements)
          (before ++ elements.flatMap (ElementRecord.stream decode)) := behind_elements h elements
      by_cases houtline : e.isOutline = true
      · rw [if_pos houtline, and_iff_left (ElementRecord.conformsAfter_outline houtline)]
      · rw [if_neg houtline, orderly_concat,
          ElementRecord.conformsAfter_stream (by simpa using houtline) hbehind.feature,
          hbehind.background, hbehind.step]

/-! ## Features -/

/-- No document awaits its feature and no step its result. -/
structure AtRest (before : List Event) : Prop where
  announced : ∀ uri, lastStructural? before ≠ some (.documentStart uri)
  step : ¬ StepOpen before

theorem atRest_nil : AtRest [] := ⟨fun _ h => by simp [last?] at h, not_stepOpen_nil⟩

/-- All is at rest behind a document. -/
theorem atRest_endOfDocument : AtRest (before ++ [.endOfDocument]) := by
  refine ⟨fun uri h => ?_, fun h => ?_⟩
  · rw [lastStructural?, last?_concat] at h
    cases h
  · rw [stepOpen_concat] at h
    simp [Passing, Event.isStructural] at h

/-- Behind the header of a feature nothing but the feature is open. -/
theorem behind_feature (header : Header) : Behind [] (before ++ [.feature header]) := by
  refine ⟨⟨header, last?_concat _ _ _⟩, ?_, ?_⟩
  · rw [BackgroundOpen, lastStructural?, last?_concat]
    simp [Event.isStructural]
  · rw [stepOpen_concat]
    simp [Passing, Event.isStructural]

/-- A feature may follow where all is at rest exactly when its elements are orderly. -/
theorem conformsAfter_feature (h : AtRest before) (uri : String) (f : FeatureRecord) :
    ConformsAfter strict before (f.stream decode uri) ↔ Orderly strict (executed f.elements) := by
  have hdocument : Legal strict before (.documentStart (f.uri.getD uri)) :=
    ⟨h.announced, fun _ => h.step⟩
  have hheader :
      Legal strict (before ++ [.documentStart (f.uri.getD uri)]) (.feature f.header) := by
    intro _ hopen
    rw [stepOpen_concat] at hopen
    simp [Passing, Event.isStructural] at hopen
  rw [FeatureRecord.stream, conformsAfter_cons, conformsAfter_cons, and_iff_right hdocument,
    and_iff_right hheader, conformsAfter_append, conformsAfter_elements (behind_feature f.header)]
  exact and_iff_left (conformsAfter_cons.mpr ⟨trivial, conformsAfter_nil⟩)

/-- All is at rest behind a feature, as it ends its document. -/
theorem atRest_stream (uri : String) (f : FeatureRecord) :
    AtRest (before ++ f.stream decode uri) := by
  have hsplit : f.stream decode uri = (.documentStart (f.uri.getD uri) :: .feature f.header ::
      f.elements.flatMap (ElementRecord.stream decode)) ++ [.endOfDocument] := rfl
  rw [hsplit, ← List.append_assoc]
  exact atRest_endOfDocument

/-- The stream of a report may follow where all is at rest exactly when the elements of each of its
features are orderly. -/
theorem conformsAfter_stream_iff (h : AtRest before) (uri : String)
    (features : List FeatureRecord) :
    ConformsAfter strict before (stream decode uri features) ↔
      ∀ f ∈ features, Orderly strict (executed f.elements) := by
  -- the trace grows from feature to feature and is at rest behind each
  induction features generalizing before with
  | nil => simp [stream]
  | cons f features ih =>
      rw [stream, List.flatMap_cons, conformsAfter_append, conformsAfter_feature h,
        List.forall_mem_cons]
      exact and_congr_right fun _ => ih (atRest_stream uri f)

end ScenarioResults.Report
