import ScenarioResults.Builder.Error
import ScenarioResults.Report.Records

/-!
# Replaying a report

A report is replayed as the event stream that a builder consumes: for each feature an announcement of
its document and its header, for each element its header, setup hooks, steps and teardown hooks, and at
last the end of the document. A step or hook is followed by its output and attachments. Status labels and
payloads are decoded on the way, and the first that cannot be decoded ends the replay. The decoder of
payloads is a parameter.
-/

namespace ScenarioResults.Report

/-- Read a status label; `pending` is a skip. -/
def outcome (status : String) : Except BuildError Outcome :=
  match Outcome.ofStatus? status with
  | some outcome => .ok outcome
  | none => .error (.unknownOutcome status)

namespace ResultRecord

/-- The verdict that a result states. -/
def verdict (r : ResultRecord) : Except BuildError Verdict := do
  let outcome ← outcome r.status
  return { outcome, duration := Duration.ofNanos64 (r.duration.getD 0), message := r.message }

end ResultRecord

/-- The tag that a record states. -/
def TagRecord.tag (t : TagRecord) : Tag := { name := t.name, line := t.line }

/-- The glue code that a record states, if there is one. -/
def glueOf (m : Option MatchRecord) : Glue := { location := m.bind MatchRecord.location }

/-- What makes bytes of the text of a payload, or says why that cannot be done. -/
abbrev Decoder := String → Except String Bytes

/-- The event of an attachment. Its payload is decoded without the blanks around it. -/
def EmbeddingRecord.event (decode : Decoder) (e : EmbeddingRecord) : Except BuildError Event :=
  match decode (Text.trim e.data) with
  | .ok data => .ok (.embedding e.mimeType data)
  | .error message => .error (.attachmentRefused e.mimeType (.undecodable message))

/-- The events of texts and attachments. -/
def outputEvents (decode : Decoder) (output : List String) (embeddings : List EmbeddingRecord) :
    Except BuildError (List Event) := do
  return output.map Event.write ++ (← embeddings.mapM (EmbeddingRecord.event decode))

/-- The events of a hook, as a setup or teardown hook. -/
def HookRecord.events (decode : Decoder) (make : Glue → Verdict → Event) (h : HookRecord) :
    Except BuildError (List Event) := do
  let verdict ← h.result.verdict
  return make (glueOf h.glue) verdict :: (← outputEvents decode h.output h.embeddings)

/-- The events of a step. -/
def StepRecord.events (decode : Decoder) (s : StepRecord) : Except BuildError (List Event) := do
  let result ← s.result.mapM ResultRecord.verdict
  return .step { keyword := s.keyword, name := s.name, line := s.line } ::
    (s.glue.map fun g => Event.binding (glueOf (some g))).toList ++
      (result.map Event.result).toList ++ (← outputEvents decode s.output s.embeddings)

namespace ElementRecord

/-- Whether the element is a background. -/
def isBackground (e : ElementRecord) : Bool := e.kind == "background"

/-- Whether the element is a scenario outline, whose examples are elements of their own. -/
def isOutline (e : ElementRecord) : Bool := e.kind == "scenario_outline"

/-- The header of a scenario or scenario outline. -/
def header (e : ElementRecord) : Header :=
  { id := e.id
    keyword := e.keyword
    name := e.name
    description := e.description
    line := e.line
    tags := e.tags.map TagRecord.tag }

/-- The header of a background. -/
def backgroundHeader (e : ElementRecord) : BackgroundHeader :=
  { keyword := e.keyword, name := e.name, description := e.description, line := e.line }

/-- The events of the hooks and steps of an element. -/
def bodyEvents (decode : Decoder) (e : ElementRecord) : Except BuildError (List Event) := do
  let before ← e.before.mapM (HookRecord.events decode .before)
  let steps ← e.steps.mapM (StepRecord.events decode)
  let after ← e.after.mapM (HookRecord.events decode .after)
  return before.flatten ++ steps.flatten ++ after.flatten

/-- The events of an element. Of a scenario outline only the header is told. -/
def events (decode : Decoder) (e : ElementRecord) : Except BuildError (List Event) :=
  if e.isOutline then .ok [.outline e.header]
  else do
    let start : Event := if e.isBackground then .background e.backgroundHeader else .scenario e.header
    return start :: (← e.bodyEvents decode)

end ElementRecord

namespace FeatureRecord

/-- The header of a feature. -/
def header (f : FeatureRecord) : Header :=
  { id := f.id
    keyword := f.keyword
    name := f.name
    description := f.description
    line := f.line
    tags := f.tags.map TagRecord.tag }

/-- The events of a feature; `uri` names the document when the feature does not. -/
def events (decode : Decoder) (uri : String) (f : FeatureRecord) :
    Except BuildError (List Event) := do
  let elements ← f.elements.mapM (ElementRecord.events decode)
  return .documentStart (f.uri.getD uri) :: .feature f.header :: elements.flatten ++ [.endOfDocument]

end FeatureRecord

/-- The events of a report. -/
def events (decode : Decoder) (uri : String) (features : List FeatureRecord) :
    Except BuildError (List Event) := do
  return (← features.mapM (FeatureRecord.events decode uri)).flatten

end ScenarioResults.Report
