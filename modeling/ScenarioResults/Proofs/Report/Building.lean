import ScenarioResults.Proofs.Builder.Reachable
import ScenarioResults.Proofs.Report.Items

/-!
# Building from a report

A builder makes of the stream of a report what the report tells: `processAll_events`.

## Shape of the proof

What a builder makes of a stream is the grouping of the stream, so only the grouping of a report is
looked at here. `Tells` reads the segment of an element, whose body ends with the outlines behind
it, and `Segment.waiting?` is the background that such a segment leaves for the next scenario. With
these the segments of a feature give its scenarios one by one.
-/

namespace ScenarioResults.Report

open ScenarioResults.Stream

section Store

variable {decode : Decoder} {σ : Type} [AttachmentStore σ] (store : σ)

/-! ## Segments -/

/-- The body of a segment has the hooks, steps and attachments that an element tells. -/
structure Tells (decode : Decoder) (store : σ) (e : ElementRecord) (body : List Arrival) : Prop where
  before : body.filterMap Arrival.before? = e.before.map HookRecord.told
  steps : stepsAfter [] body = e.steps.filterMap StepRecord.told?
  after : body.filterMap Arrival.after? = e.after.map HookRecord.told
  attachments : body.filterMap Arrival.reference = references store (e.payloads decode)

variable (decode) in
/-- The body of an element has what the element tells. -/
theorem tells_bodyStream (e : ElementRecord) :
    Tells decode store e (arrivals store (e.bodyStream decode)) where
  before := by rw [filterMap_before?_arrivals, e.setup_bodyStream]
  steps := e.stepsAfter_bodyStream store
  after := by rw [filterMap_after?_arrivals, e.teardown_bodyStream]
  attachments := by rw [filterMap_reference_arrivals, e.offers_bodyStream]

/-- The arrival tells of an outline. -/
def IsOutline (a : Arrival) : Prop := ∃ header, a = { event := .outline header }

variable {store} in
/-- Outlines behind an element add nothing to it. -/
theorem Tells.append {e : ElementRecord} {body as : List Arrival} (h : Tells decode store e body)
    (has : ∀ a ∈ as, IsOutline a) : Tells decode store e (body ++ as) := by
  have hnone : ∀ {α : Type} (f : Arrival → Option α),
      (∀ header, f { event := .outline header } = none) → as.filterMap f = [] := by
    intro α f hf
    refine List.filterMap_eq_nil_iff.mpr fun a ha => ?_
    obtain ⟨header, rfl⟩ := has a ha
    exact hf header
  have hasides : ∀ a ∈ as, isAside a.event = true := by
    intro a ha
    obtain ⟨header, rfl⟩ := has a ha
    rfl
  refine ⟨?_, ?_, ?_, ?_⟩
  · rw [List.filterMap_append, h.before, hnone _ fun _ => rfl, List.append_nil]
  · rw [stepsAfter_append, h.steps, stepsAfter_of_asides hasides, List.append_nil]
  · rw [List.filterMap_append, h.after, hnone _ fun _ => rfl, List.append_nil]
  · rw [List.filterMap_append, h.attachments, hnone _ fun _ => rfl, List.append_nil]

namespace ElementRecord

variable {e : ElementRecord} {xs : List Event} {rest : List Arrival}

/-- An outline arrives as itself and offers nothing. -/
theorem arrivals_outline (h : e.isOutline = true) :
    arrivals store (e.stream decode ++ xs) =
      { event := .outline e.header } :: arrivals store xs := by
  rw [stream, if_pos h]
  rfl

/-- Any other element arrives as its opener and its body, and what follows meets a store that has
taken its payloads. -/
theorem arrivals_executed (h : e.isOutline = false) :
    arrivals store (e.stream decode ++ xs) =
      { event := e.opener } ::
        (arrivals store (e.bodyStream decode) ++ arrivals (offerAll store (e.payloads decode)) xs) := by
  have hopener : ∀ ys,
      arrivals store (e.opener :: ys) = { event := e.opener } :: arrivals store ys := by
    intro ys
    unfold opener
    split <;> rfl
  rw [stream_of_executed h, List.append_assoc, List.singleton_append, hopener, arrivals_append,
    e.offers_bodyStream]

/-- The opener of an element begins a segment. -/
theorem isInner_opener (e : ElementRecord) : ({ event := e.opener } : Arrival).isInner = false := by
  unfold opener
  split <;> rfl

/-- An outline belongs to the segment in front of it. -/
theorem segments_outline (h : e.isOutline = true) :
    segments (arrivals store (e.stream decode ++ xs) ++ rest) =
      segments (arrivals store xs ++ rest) := by
  rw [arrivals_outline store h, List.cons_append]
  rfl

/-- Every other element opens a segment. -/
theorem segments_executed (h : e.isOutline = false) :
    segments (arrivals store (e.stream decode ++ xs) ++ rest) =
      let next := arrivals (offerAll store (e.payloads decode)) xs ++ rest
      { opener := e.opener
        body := arrivals store (e.bodyStream decode) ++ next.takeWhile Arrival.isInner } ::
          segments next := by
  rw [arrivals_executed store h, List.cons_append, List.append_assoc,
    segments_opener e.isInner_opener (isInner_of_mem_arrivals store e.inner_bodyStream)]

end ElementRecord

/-- The arrival that ends a document. -/
abbrev ending : Arrival := { event := .endOfDocument }

variable (decode) in
/-- Up to the next segment of a feature there are outlines only. -/
theorem isOutline_of_mem_takeWhile (elements : List ElementRecord) (more : List Arrival) :
    ∀ a ∈ (arrivals store (elements.flatMap (ElementRecord.stream decode)) ++ ending :: more).takeWhile
      Arrival.isInner, IsOutline a := by
  -- the document ends in an arrival that opens a segment, so there is one to stop at
  induction elements with
  | nil =>
      intro a ha
      cases ha
  | cons e elements ih =>
      rw [List.flatMap_cons]
      by_cases houtline : e.isOutline = true
      · rw [ElementRecord.arrivals_outline store houtline, List.cons_append,
          List.takeWhile_cons_of_pos rfl]
        intro a ha
        rcases List.mem_cons.mp ha with rfl | ha
        · exact ⟨e.header, rfl⟩
        · exact ih a ha
      · rw [ElementRecord.arrivals_executed store (by simpa using houtline), List.cons_append,
          List.takeWhile_cons_of_neg (by simp [e.isInner_opener])]
        intro a ha
        cases ha

namespace ElementRecord

variable {e : ElementRecord} {body : List Arrival} (previous : Segment) (ss : List Segment)

/-- A segment that an element opens adds no feature. -/
theorem featuresFrom_opener (previous : Event) :
    featuresFrom previous ({ opener := e.opener, body } :: ss) = featuresFrom e.opener ss := by
  unfold opener
  split <;> rfl

/-- A background waits for the next scenario. -/
theorem scenariosFrom_background (h : e.isBackground = true) (htells : Tells decode store e body) :
    scenariosFrom previous ({ opener := e.opener, body } :: ss) =
        scenariosFrom { opener := e.opener, body } ss ∧
      ({ opener := e.opener, body } : Segment).waiting? = some (e.toldBackground decode store) := by
  rw [opener, if_pos h]
  refine ⟨rfl, ?_⟩
  rw [Segment.waiting?, Segment.background?]
  simp only [Option.map_some, htells.before, htells.steps, htells.after, htells.attachments]
  rfl

/-- Every other element is a scenario, which adopts what waits, and nothing waits behind it. -/
theorem scenariosFrom_scenario (h : ¬ e.isBackground = true) (htells : Tells decode store e body) :
    scenariosFrom previous ({ opener := e.opener, body } :: ss) =
        e.toldScenario decode store previous.waiting? ::
          scenariosFrom { opener := e.opener, body } ss ∧
      ({ opener := e.opener, body } : Segment).waiting? = none := by
  have hscenario : scenarioOf e.header previous.background? body =
      e.toldScenario decode store previous.waiting? := by
    rw [scenarioOf_eq, htells.before, htells.steps, htells.after, htells.attachments]
    rfl
  rw [opener, if_neg h, ← hscenario]
  exact ⟨rfl, rfl⟩

end ElementRecord

/-- The scenarios of a feature's segments are those that its elements tell. -/
theorem scenariosFrom_elements (elements : List ElementRecord) (previous : Segment)
    (more : List Arrival) :
    scenariosFrom previous
        (segments (arrivals store (elements.flatMap (ElementRecord.stream decode)) ++ ending :: more)) =
      scenariosTold decode store previous.waiting? elements := by
  induction elements generalizing store previous with
  | nil => rfl
  | cons e elements ih =>
      rw [List.flatMap_cons]
      by_cases houtline : e.isOutline = true
      · rw [scenariosTold_outline houtline, ElementRecord.segments_outline store houtline, ih]
      -- the segment holds the element and the outlines behind it
      · have htells := (tells_bodyStream decode store e).append
          (isOutline_of_mem_takeWhile decode (offerAll store (e.payloads decode)) elements more)
        rw [ElementRecord.segments_executed store (by simpa using houtline)]
        dsimp only
        by_cases hbackground : e.isBackground = true
        · obtain ⟨hscenarios, hwaiting⟩ := ElementRecord.scenariosFrom_background store previous
            (segments _) hbackground htells
          rw [scenariosTold_background houtline hbackground, hscenarios, ih, hwaiting]
        · obtain ⟨hscenarios, hwaiting⟩ := ElementRecord.scenariosFrom_scenario store previous
            (segments _) hbackground htells
          rw [scenariosTold_scenario houtline hbackground, hscenarios, ih, hwaiting]

/-- The segments of a feature's elements hold no feature. -/
theorem featuresFrom_elements (elements : List ElementRecord) (previous : Event)
    (more : List Arrival) :
    featuresFrom previous
        (segments (arrivals store (elements.flatMap (ElementRecord.stream decode)) ++ ending :: more)) =
      featuresFrom .endOfDocument (segments more) := by
  induction elements generalizing store previous with
  | nil => rfl
  | cons e elements ih =>
      rw [List.flatMap_cons]
      by_cases houtline : e.isOutline = true
      · rw [ElementRecord.segments_outline store houtline, ih]
      · rw [ElementRecord.segments_executed store (by simpa using houtline),
          ElementRecord.featuresFrom_opener, ih]

/-! ## Features -/

/-- A feature arrives as its announcement, its header, its elements and the end of its document. -/
theorem arrivals_feature (uri : String) (f : FeatureRecord) (xs : List Event) :
    arrivals store (f.stream decode uri ++ xs) =
      { event := .documentStart (f.uri.getD uri) } :: { event := .feature f.header } ::
        (arrivals store (f.elements.flatMap (ElementRecord.stream decode)) ++
          ending :: arrivals (offerAll store (f.payloads decode)) xs) := by
  have helements :
      arrivals store (f.elements.flatMap (ElementRecord.stream decode) ++ [.endOfDocument] ++ xs) =
        arrivals store (f.elements.flatMap (ElementRecord.stream decode)) ++
          ending :: arrivals (offerAll store (f.payloads decode)) xs := by
    rw [List.append_assoc, arrivals_append, offers_elements]
    rfl
  rw [← helements]
  rfl

/-- The features of a report's segments are those that it tells. -/
theorem featuresFrom_stream (uri : String) (features : List FeatureRecord) (previous : Event) :
    featuresFrom previous (segments (arrivals store (stream decode uri features))) =
      featuresTold decode store uri features := by
  induction features generalizing store previous with
  | nil => rfl
  | cons f features ih =>
      -- announcement and header are two segments, and the rest belongs to the header's
      have hsegments : ∀ as : List Arrival,
          featuresFrom previous
              (segments ({ event := .documentStart (f.uri.getD uri) } ::
                { event := .feature f.header } :: as)) =
            { uri := some (f.uri.getD uri)
              header := f.header
              scenarios :=
                scenariosFrom { opener := .feature f.header, body := as.takeWhile Arrival.isInner }
                  (segments as) } ::
              featuresFrom (.feature f.header) (segments as) := fun _ => rfl
      rw [stream, List.flatMap_cons, arrivals_feature, hsegments, scenariosFrom_elements,
        featuresFrom_elements, ← stream, ih]
      rfl

/-! ## The builder -/

/-- Behind a report an idle builder is idle again, as each feature ends its document. -/
theorem idle_processAll_stream {b : Builder σ} (hopened : b.opened = .idle)
    (hpending : b.pending = none) {uri : String} {features : List FeatureRecord}
    (h : (b.processAll (stream decode uri features)).error = none) :
    (b.processAll (stream decode uri features)).builder.opened = .idle ∧
      (b.processAll (stream decode uri features)).builder.pending = none := by
  -- a report without features has no events; any other ends with the end of its last document
  rcases List.eq_nil_or_concat features with rfl | ⟨earlier, f, rfl⟩
  · exact ⟨hopened, hpending⟩
  · have hsplit : stream decode uri (earlier.concat f) =
        (stream decode uri earlier ++ .documentStart (f.uri.getD uri) :: .feature f.header ::
          f.elements.flatMap (ElementRecord.stream decode)) ++ [.endOfDocument] := by
      rw [List.concat_eq_append, stream, List.flatMap_append, List.flatMap_singleton,
        List.append_assoc]
      rfl
    rw [hsplit] at h ⊢
    exact idle_of_endOfDocument h

/-- An idle builder whose store refuses nothing takes all the events of a report exactly when the
elements of each feature are orderly. Then it is idle again, its store has taken the payloads of the
report, and what the report tells has come behind the features of its tree. -/
theorem processAll_events {b : Builder σ} (hb : b.Reachable) (hidle : b.context = .idle)
    (hstore : NeverRefuses b.store) {uri : String} {features : List FeatureRecord}
    {events : List Event} (hevents : Report.events decode uri features = .ok events) :
    ((b.processAll events).error = none ↔
        ∀ f ∈ features, Orderly b.settings.strict (executed f.elements)) ∧
      ((b.processAll events).error = none →
        (b.processAll events).builder.context = .idle ∧
        (b.processAll events).builder.pending = none ∧
        (features = [] → (b.processAll events).builder = b) ∧
        (b.processAll events).builder.store =
          offerAll b.store (features.flatMap (FeatureRecord.payloads decode)) ∧
        (b.processAll events).builder.tree.content =
          b.tree.content ++ featuresTold decode b.store uri features) := by
  have hopened : b.opened = .idle := by
    cases hopen : b.opened <;> simp [Builder.context, hopen, Open.context] at hidle
    rfl
  have hpending : b.pending = none := hb.pending_of_idle hopened
  -- from here on the events are the stream, and nothing can fail in replaying it
  obtain rfl := eq_stream_of_events hevents
  refine ⟨?_, fun h => ⟨?_, ?_, ?_, ?_, ?_⟩⟩
  -- an idle builder tracks the empty trace, behind which all is at rest
  · rw [(tracks_of_idle hopened hpending hstore).error_processAll_iff]
    exact conformsAfter_stream_iff atRest_nil uri features
  · rw [Builder.context, (idle_processAll_stream hopened hpending h).1]
    rfl
  · exact (idle_processAll_stream hopened hpending h).2
  · rintro rfl
    rfl
  · rw [store_processAll h, offers_stream]
  · rw [content_processAll_of_idle hopened hpending h, grouped, featuresFrom_stream]

/-- In strict ordering, with a hook and a pending step in a background, an outline between it and
its scenario, an attachment with blanks around its text, a last step that was not run and a
background that no scenario adopts. -/
theorem processAll_events_adopted :
    let decode : Decoder := fun text =>
      if text = "aGk=" then .ok [104, 105] else .error "Invalid padding"
    let b := (((Builder.new {} ({} : Shelf)).process (.feature { name := "a" })).builder.process
      .endOfDocument).builder
    let features : List FeatureRecord :=
      [{ id := some "b-id"
         keyword := "Feature"
         name := "b"
         tags := [{ name := "@x", line := some 2 }]
         elements :=
           [{ kind := "background"
              keyword := "Background"
              line := some 4
              before := [{ result := { status := "passed", duration := some 7 } }]
              steps :=
                [{ keyword := "Given ", name := "s", line := some 5
                   result := some { status := " Pending" } }] },
            { kind := "scenario_outline", name := "o", steps := [{ name := "x" }] },
            { kind := "scenario"
              name := "c"
              description := "d"
              tags := [{ name := "@y" }]
              steps :=
                [{ keyword := "When "
                   name := "t"
                   glue := some { location := some "T.t()" }
                   result := some { status := "failed", duration := some 11, message := some "no" }
                   embeddings := [{ mimeType := "text/plain", data := " aGk=\n" }] },
                 { name := "u" }] }] },
       { uri := some "d.feature", name := "d", elements := [{ kind := "background" }] }]
    ∃ events, Report.events decode "r.json" features = .ok events ∧
      (b.processAll events).error = none ∧ (b.processAll events).builder.context = .idle ∧
      (b.processAll events).builder.store.stored =
        [{ filename := "embed_1.txt", mimeType := "text/plain", data := [104, 105] }] ∧
      (b.processAll events).builder.tree.content =
        b.tree.content ++
          [{ uri := some "r.json"
             header :=
               { id := some "b-id"
                 keyword := "Feature"
                 name := "b"
                 tags := [{ name := "@x", line := some 2 }] }
             scenarios :=
               [{ header := { name := "c", description := "d", tags := [{ name := "@y" }] }
                  background := some
                    { keyword := "Background", name := "", line := some 4
                      steps := [{ keyword := "Given ", name := "s", line := some 5, location := none
                                  verdict := { outcome := .skipped } }] }
                  before := [{ location := none
                               verdict := { outcome := .passed, duration := { nanos := 7 } } }]
                  steps := [{ keyword := "When ", name := "t", line := none
                              location := some "T.t()"
                              verdict := { outcome := .failed
                                           duration := { nanos := 11 }
                                           message := some "no" } }]
                  attachments := [{ mimeType := "text/plain", filename := "embed_1.txt" }] }] },
           { uri := some "d.feature", header := { name := "d" } }] := by
  intro decode b features
  have hb : b.Reachable := .process _ (.process _ (.new _ _))
  have hevents : Report.events decode "r.json" features = .ok (stream decode "r.json" features) := by
    decide +kernel
  have horderly : ∀ f ∈ features, Orderly b.settings.strict (executed f.elements) := by
    decide +kernel
  obtain ⟨haccepted, hbuilt⟩ := processAll_events hb rfl (neverRefuses_shelf _) hevents
  obtain ⟨hidle, -, -, hstore, hcontent⟩ := hbuilt (haccepted.mpr horderly)
  refine ⟨_, hevents, haccepted.mpr horderly, hidle, ?_, ?_⟩
  · rw [hstore]
    decide +kernel
  · rw [hcontent]
    decide +kernel

end Store

end ScenarioResults.Report
