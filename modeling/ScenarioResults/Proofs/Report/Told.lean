import ScenarioResults.Proofs.Stream.Arrivals
import ScenarioResults.Report.Replay

/-!
# What a report tells

The features, scenarios, steps and hooks that a report states, read off its records without events
and without a builder. `featuresTold` reads the elements of a feature in order: an outline is passed
over, a background waits for the scenario after it, and every other element is a scenario. Payloads
go to the store in the order of the report, hence the store is threaded through. Nothing here goes
through the conversions of the replay: every field of a node is written out from its record.

`Orderly` says of which elements a builder takes all the events.
-/

namespace ScenarioResults.Report

open ScenarioResults.Stream (offerAll references)

/-! ## Results, hooks and steps -/

/-- The outcome that a status label states; `pending` is a skip. A label of another kind does not come
out of a replay. -/
def statedOutcome (status : String) : Outcome :=
  match Text.folded status with
  | "passed" => .passed
  | "failed" => .failed
  | "skipped" | "pending" => .skipped
  | _ => .undefined

/-- The verdict that a result states. A missing duration is no time at all. -/
def ResultRecord.stated (r : ResultRecord) : Verdict :=
  { outcome := statedOutcome r.status
    duration :=
      { nanos := (r.duration.getD 0).toNat
        le_longest := by have := (r.duration.getD 0).toNat_lt; omega }
    message := r.message }

/-- The hook that a record states. -/
def HookRecord.told (h : HookRecord) : Hook :=
  { location := h.glue.bind MatchRecord.location, verdict := h.result.stated }

/-- The step that a record states, if it was run. -/
def StepRecord.told? (s : StepRecord) : Option Step :=
  s.result.map fun r =>
    { keyword := s.keyword
      name := s.name
      line := s.line
      location := s.glue.bind MatchRecord.location
      verdict := r.stated }

/-- The tags that records state. -/
def tagsTold (tags : List TagRecord) : List Tag :=
  tags.map fun t => { name := t.name, line := t.line }

/-! ## Attachments -/

/-- Media type and bytes of an attachment. A text that cannot be decoded does not come out of a
replay. -/
def EmbeddingRecord.payload (decode : Decoder) (e : EmbeddingRecord) : String × Bytes :=
  (e.mimeType, (decode (Text.trim e.data)).toOption.getD [])

variable {σ : Type} [AttachmentStore σ]

namespace ElementRecord

/-- The payloads of an element in order. -/
def payloads (decode : Decoder) (e : ElementRecord) : List (String × Bytes) :=
  (e.before.flatMap HookRecord.embeddings ++ e.steps.flatMap StepRecord.embeddings ++
    e.after.flatMap HookRecord.embeddings).map (EmbeddingRecord.payload decode)

/-! ## Elements -/

/-- The background that an element states, and what it has for the scenario that adopts it. -/
def toldBackground (decode : Decoder) (store : σ) (e : ElementRecord) : Background × Held :=
  ({ keyword := e.keyword
     name := e.name
     line := e.line
     steps := e.steps.filterMap StepRecord.told? },
    { before := e.before.map HookRecord.told
      after := e.after.map HookRecord.told
      attachments := references store (e.payloads decode) })

/-- The scenario that an element states behind the background that waits for it, if one does. -/
def toldScenario (decode : Decoder) (store : σ) (waiting : Option (Background × Held))
    (e : ElementRecord) : Scenario :=
  let held := waiting.elim {} Prod.snd
  { header :=
      { id := e.id
        keyword := e.keyword
        name := e.name
        description := e.description
        line := e.line
        tags := tagsTold e.tags }
    background := waiting.map Prod.fst
    before := held.before ++ e.before.map HookRecord.told
    steps := e.steps.filterMap StepRecord.told?
    after := held.after ++ e.after.map HookRecord.told
    attachments := held.attachments ++ references store (e.payloads decode) }

/-- Every step was run. -/
def Resolved (e : ElementRecord) : Prop := ∀ s ∈ e.steps, s.result.isSome

/-- Every step but the last was run. -/
def ResolvedButLast (e : ElementRecord) : Prop := ∀ s ∈ e.steps.dropLast, s.result.isSome

instance (e : ElementRecord) : Decidable e.Resolved :=
  inferInstanceAs (Decidable (∀ s ∈ e.steps, _))

instance (e : ElementRecord) : Decidable e.ResolvedButLast :=
  inferInstanceAs (Decidable (∀ s ∈ e.steps.dropLast, _))

end ElementRecord

/-- The elements that were executed: all but the outlines. -/
def executed (elements : List ElementRecord) : List ElementRecord :=
  elements.filter fun e => e.kind != "scenario_outline"

@[simp]
theorem executed_nil : executed [] = [] := rfl

/-- An outline in front is passed over. -/
theorem executed_cons (e : ElementRecord) (elements : List ElementRecord) :
    executed (e :: elements) = if e.isOutline then executed elements else e :: executed elements := by
  have hkept : (e.kind != "scenario_outline") = !e.isOutline := rfl
  cases h : e.isOutline <;> simp [executed, hkept, h]

/-- An outline at the end is passed over. -/
theorem executed_concat (elements : List ElementRecord) (e : ElementRecord) :
    executed (elements ++ [e]) =
      if e.isOutline then executed elements else executed elements ++ [e] := by
  have hkept : (e.kind != "scenario_outline") = !e.isOutline := rfl
  cases h : e.isOutline <;> simp [executed, hkept, h]

/-- The scenarios that elements state, behind the background that waits for the first of them. -/
def scenariosTold (decode : Decoder) (store : σ) (waiting : Option (Background × Held)) :
    List ElementRecord → List Scenario
  | [] => []
  | e :: es =>
    let next := offerAll store (e.payloads decode)
    if e.kind == "scenario_outline" then scenariosTold decode store waiting es
    else if e.kind == "background" then
      scenariosTold decode next (some (e.toldBackground decode store)) es
    else e.toldScenario decode store waiting :: scenariosTold decode next none es

section Cases

variable {decode : Decoder} {store : σ} {waiting : Option (Background × Held)} {e : ElementRecord}
  {es : List ElementRecord}

/-- An outline states no scenario, and what waits goes on waiting. -/
theorem scenariosTold_outline (h : e.isOutline = true) :
    scenariosTold decode store waiting (e :: es) = scenariosTold decode store waiting es := if_pos h

/-- A background takes the place of what waits. -/
theorem scenariosTold_background (houtline : ¬ e.isOutline = true) (h : e.isBackground = true) :
    scenariosTold decode store waiting (e :: es) =
      scenariosTold decode (offerAll store (e.payloads decode))
        (some (e.toldBackground decode store)) es :=
  (if_neg houtline).trans (if_pos h)

/-- A scenario adopts what waits, and nothing waits behind it. -/
theorem scenariosTold_scenario (houtline : ¬ e.isOutline = true) (h : ¬ e.isBackground = true) :
    scenariosTold decode store waiting (e :: es) =
      e.toldScenario decode store waiting ::
        scenariosTold decode (offerAll store (e.payloads decode)) none es :=
  (if_neg houtline).trans (if_neg h)

end Cases

/-- Between two backgrounds there is a scenario. In strict ordering every step was run, except that
the last step of the last element need not be. The elements are those of one feature without
outlines. -/
structure Orderly (strict : Bool) (es : List ElementRecord) : Prop where
  backgrounds : es.IsChain fun e e' => ¬ (e.kind = "background" ∧ e'.kind = "background")
  earlier : strict = true → ∀ e ∈ es.dropLast, e.Resolved
  last : strict = true → ∀ e ∈ es.getLast?, e.ResolvedButLast

/-- Order, as the conjunction of its parts. -/
theorem orderly_iff {strict : Bool} {es : List ElementRecord} :
    Orderly strict es ↔
      (es.IsChain fun e e' => ¬ (e.kind = "background" ∧ e'.kind = "background")) ∧
        (strict = true → ∀ e ∈ es.dropLast, e.Resolved) ∧
        (strict = true → ∀ e ∈ es.getLast?, e.ResolvedButLast) :=
  ⟨fun h => ⟨h.backgrounds, h.earlier, h.last⟩, fun h => ⟨h.1, h.2.1, h.2.2⟩⟩

instance (strict : Bool) (es : List ElementRecord) : Decidable (Orderly strict es) :=
  decidable_of_iff' _ orderly_iff

/-! ## Features -/

namespace FeatureRecord

/-- The payloads of a feature in order. -/
def payloads (decode : Decoder) (f : FeatureRecord) : List (String × Bytes) :=
  (executed f.elements).flatMap (ElementRecord.payloads decode)

/-- The feature that a record states; `uri` names the document when the record does not. -/
def told (decode : Decoder) (store : σ) (uri : String) (f : FeatureRecord) : Feature :=
  { uri := some (f.uri.getD uri)
    header :=
      { id := f.id
        keyword := f.keyword
        name := f.name
        description := f.description
        line := f.line
        tags := tagsTold f.tags }
    scenarios := scenariosTold decode store none f.elements }

end FeatureRecord

/-- The features that a report states. -/
def featuresTold (decode : Decoder) (store : σ) (uri : String) : List FeatureRecord → List Feature
  | [] => []
  | f :: fs =>
    f.told decode store uri :: featuresTold decode (offerAll store (f.payloads decode)) uri fs

end ScenarioResults.Report
