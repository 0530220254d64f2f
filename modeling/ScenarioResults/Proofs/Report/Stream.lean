import ScenarioResults.Proofs.Report.Told

/-!
# The stream of a report

Where a replay succeeds, it gives the events written down here without the ways in which it can
fail: `eq_stream_of_events`, level by level.
-/

namespace ScenarioResults.Report

variable (decode : Decoder)

/-! ## The events -/

/-- The events of texts and attachments. -/
def outputStream (output : List String) (embeddings : List EmbeddingRecord) : List Event :=
  output.map Event.write ++
    embeddings.map fun e => .embedding (e.payload decode).1 (e.payload decode).2

/-- The events of a hook, as a setup or teardown hook. -/
def HookRecord.stream (make : Glue → Verdict → Event) (h : HookRecord) : List Event :=
  make (glueOf h.glue) h.result.stated :: outputStream decode h.output h.embeddings

namespace StepRecord

/-- The declaration of a step. -/
def header (s : StepRecord) : StepHeader := { keyword := s.keyword, name := s.name, line := s.line }

/-- The event that binds a step, if its record has glue code. -/
def bindingStream (s : StepRecord) : List Event :=
  (s.glue.map fun g => Event.binding (glueOf (some g))).toList

/-- The event that resolves a step, if its record has a result. -/
def resultStream (s : StepRecord) : List Event :=
  (s.result.map fun r => Event.result r.stated).toList

/-- The events of a step. -/
def stream (s : StepRecord) : List Event :=
  [.step s.header] ++ s.bindingStream ++ s.resultStream ++
    outputStream decode s.output s.embeddings

end StepRecord

namespace ElementRecord

/-- The events of the hooks and steps of an element. -/
def bodyStream (e : ElementRecord) : List Event :=
  e.before.flatMap (HookRecord.stream decode .before) ++
    e.steps.flatMap (StepRecord.stream decode) ++ e.after.flatMap (HookRecord.stream decode .after)

/-- The event that opens an element which is no outline. -/
def opener (e : ElementRecord) : Event :=
  if e.isBackground then .background e.backgroundHeader else .scenario e.header

/-- The events of an element. -/
def stream (e : ElementRecord) : List Event :=
  if e.isOutline then [.outline e.header] else e.opener :: e.bodyStream decode

end ElementRecord

/-- The events of a feature. -/
def FeatureRecord.stream (uri : String) (f : FeatureRecord) : List Event :=
  .documentStart (f.uri.getD uri) :: .feature f.header ::
    (f.elements.flatMap (ElementRecord.stream decode) ++ [.endOfDocument])

/-- The events of a report. -/
def stream (uri : String) (features : List FeatureRecord) : List Event :=
  features.flatMap (FeatureRecord.stream decode uri)

/-! ## Replays that succeed -/

/-- What follows a step that succeeded is what the whole gives. -/
theorem bind_eq_ok {ε α β : Type} {x : Except ε α} {f : α → Except ε β} {b : β}
    (h : (x >>= f) = .ok b) : ∃ a, x = .ok a ∧ f a = .ok b := by
  cases x with
  | error e => cases h
  | ok a => exact ⟨a, rfl, h⟩

/-- A traversal that succeeds maps when each of its steps does. -/
theorem eq_map_of_mapM {ε α β : Type} {f : α → Except ε β} {g : α → β}
    (hf : ∀ x y, f x = .ok y → y = g x) {xs : List α} {ys : List β} (h : xs.mapM f = .ok ys) :
    ys = xs.map g := by
  induction xs generalizing ys with
  | nil =>
      cases h
      rfl
  | cons x xs ih =>
      rw [List.mapM_cons] at h
      obtain ⟨y, hy, h⟩ := bind_eq_ok h
      obtain ⟨rest, hrest, h⟩ := bind_eq_ok h
      cases h
      rw [hf x y hy, ih hrest, List.map_cons]

/-- A label that is read names the outcome that it states. -/
theorem eq_statedOutcome {status : String} {o : Outcome} (h : Outcome.ofStatus? status = some o) :
    o = statedOutcome status := by
  unfold Outcome.ofStatus? at h
  split at h
  -- `pending` is told apart before the labels are looked at
  · next hpending =>
      cases h
      simp [statedOutcome, hpending]
  · unfold Outcome.ofLabel? at h
    split at h <;> cases h <;> next hlabel => simp [statedOutcome, hlabel]

/-- A verdict that is read is the one that the result states. -/
theorem ResultRecord.eq_stated {r : ResultRecord} {v : Verdict} (h : r.verdict = .ok v) :
    v = r.stated := by
  obtain ⟨outcome, houtcome, h⟩ := bind_eq_ok h
  cases h
  unfold Report.outcome at houtcome
  cases hstatus : Outcome.ofStatus? r.status with
  | none => simp [hstatus] at houtcome
  | some o =>
      rw [hstatus] at houtcome
      cases houtcome
      have hduration : Duration.ofNanos64 (r.duration.getD 0) = r.stated.duration :=
        Duration.ext (Duration.nanos_ofNanos64 _)
      rw [eq_statedOutcome hstatus, hduration]
      rfl

variable {decode}

/-- An attachment that is read carries the payload of its record. -/
theorem EmbeddingRecord.eq_payload {e : EmbeddingRecord} {event : Event}
    (h : e.event decode = .ok event) :
    event = .embedding (e.payload decode).1 (e.payload decode).2 := by
  unfold EmbeddingRecord.event at h
  cases hdata : decode (Text.trim e.data) with
  | error message => simp [hdata] at h
  | ok data =>
      rw [hdata] at h
      cases h
      simp [payload, hdata, Except.toOption]

/-- Output that is replayed gives its stream. -/
theorem eq_outputStream {output : List String} {embeddings : List EmbeddingRecord}
    {events : List Event} (h : outputEvents decode output embeddings = .ok events) :
    events = outputStream decode output embeddings := by
  obtain ⟨attached, hattached, h⟩ := bind_eq_ok h
  cases h
  rw [eq_map_of_mapM (fun _ _ => EmbeddingRecord.eq_payload) hattached]
  rfl

/-- A hook that is replayed gives its stream. -/
theorem HookRecord.eq_stream {make : Glue → Verdict → Event} {h : HookRecord} {events : List Event}
    (hevents : h.events decode make = .ok events) : events = h.stream decode make := by
  obtain ⟨verdict, hverdict, hevents⟩ := bind_eq_ok hevents
  obtain ⟨output, houtput, hevents⟩ := bind_eq_ok hevents
  cases hevents
  rw [ResultRecord.eq_stated hverdict, eq_outputStream houtput]
  rfl

/-- A step that is replayed gives its stream. -/
theorem StepRecord.eq_stream {s : StepRecord} {events : List Event}
    (h : s.events decode = .ok events) : events = s.stream decode := by
  obtain ⟨result, hresult, h⟩ := bind_eq_ok h
  obtain ⟨output, houtput, h⟩ := bind_eq_ok h
  cases h
  have hstated : result = s.result.map ResultRecord.stated := by
    cases hr : s.result with
    | none =>
        rw [hr] at hresult
        cases hresult
        rfl
    | some r =>
        rw [hr] at hresult
        obtain ⟨v, hv, hresult⟩ := bind_eq_ok hresult
        cases hresult
        rw [ResultRecord.eq_stated hv, Option.map_some]
  rw [hstated, eq_outputStream houtput, Option.map_map]
  rfl

namespace ElementRecord

variable {e : ElementRecord} {events : List Event}

/-- Hooks and steps of an element that are replayed give its body. -/
theorem eq_bodyStream (h : e.bodyEvents decode = .ok events) :
    events = e.bodyStream decode := by
  obtain ⟨before, hbefore, h⟩ := bind_eq_ok h
  obtain ⟨steps, hsteps, h⟩ := bind_eq_ok h
  obtain ⟨after, hafter, h⟩ := bind_eq_ok h
  cases h
  rw [eq_map_of_mapM (fun _ _ => HookRecord.eq_stream) hbefore,
    eq_map_of_mapM (fun _ _ => StepRecord.eq_stream) hsteps,
    eq_map_of_mapM (fun _ _ => HookRecord.eq_stream) hafter]
  simp [bodyStream, List.flatMap_def]

/-- An element that is replayed gives its stream. -/
theorem eq_stream (h : e.events decode = .ok events) : events = e.stream decode := by
  unfold ElementRecord.events at h
  unfold stream
  split at h
  · next houtline =>
      cases h
      rw [if_pos houtline]
  · next houtline =>
      obtain ⟨body, hbody, h⟩ := bind_eq_ok h
      cases h
      rw [if_neg houtline, eq_bodyStream hbody]
      rfl

end ElementRecord

/-- A feature that is replayed gives its stream. -/
theorem FeatureRecord.eq_stream {uri : String} {f : FeatureRecord} {events : List Event}
    (h : f.events decode uri = .ok events) : events = f.stream decode uri := by
  obtain ⟨elements, helements, h⟩ := bind_eq_ok h
  cases h
  rw [eq_map_of_mapM (fun _ _ => ElementRecord.eq_stream) helements]
  simp [FeatureRecord.stream, List.flatMap_def]

/-- A replay that succeeds gives the stream of the report. -/
theorem eq_stream_of_events {uri : String} {features : List FeatureRecord} {events : List Event}
    (h : Report.events decode uri features = .ok events) : events = stream decode uri features := by
  obtain ⟨parts, hparts, h⟩ := bind_eq_ok h
  cases h
  rw [eq_map_of_mapM (fun _ _ => FeatureRecord.eq_stream) hparts, stream, List.flatMap_def]

end ScenarioResults.Report
