import ScenarioResults.Base64
import ScenarioResults.Json.Record
import ScenarioResults.Report.Reader

/-!
# Reports as JSON with base64

The parser and the decoder that an executable takes for the parameters of a reading: reports are JSON,
and payloads are base64.
-/

namespace ScenarioResults.Report

open Json (Scan field)

/-! ## Records from JSON -/

/-- Read a tag. -/
def tagRecord : Scan TagRecord :=
  Json.record "TagDocument"
    [field "name" Json.text fun t name => { t with name },
      field "line" (Json.optional Json.word32) fun t line => { t with line }]
    {}

/-- Read a location of glue code. -/
def matchRecord : Scan MatchRecord :=
  Json.record "MatchDocument"
    [field "location" (Json.optional Json.text) fun m location => { m with location }]
    {}

/-- Read a result. -/
def resultRecord : Scan ResultRecord :=
  Json.record "ResultDocument"
    [field "status" Json.text fun r status => { r with status },
      field "duration" (Json.optional Json.word64) fun r duration => { r with duration },
      field "error_message" (Json.optional Json.text) fun r message => { r with message }]
    {}

/-- Read an attachment. -/
def embeddingRecord : Scan EmbeddingRecord :=
  Json.record "EmbeddingDocument"
    [field "mime_type" Json.text (fun e mimeType => { e with mimeType }) ["media_type"],
      field "data" Json.text fun e data => { e with data }]
    {}

/-- Read a hook. -/
def hookRecord : Scan HookRecord :=
  Json.record "HookDocument"
    [field "match" (Json.optional matchRecord) fun h glue => { h with glue },
      field "result" resultRecord fun h result => { h with result },
      field "output" (Json.list Json.text) fun h output => { h with output },
      field "embeddings" (Json.list embeddingRecord) fun h embeddings => { h with embeddings }]
    {}

/-- Read a step. -/
def stepRecord : Scan StepRecord :=
  Json.record "StepDocument"
    [field "keyword" Json.text fun s keyword => { s with keyword },
      field "name" Json.text fun s name => { s with name },
      field "line" (Json.optional Json.word32) fun s line => { s with line },
      field "match" (Json.optional matchRecord) fun s glue => { s with glue },
      field "result" (Json.optional resultRecord) fun s result => { s with result },
      field "output" (Json.list Json.text) fun s output => { s with output },
      field "embeddings" (Json.list embeddingRecord) fun s embeddings => { s with embeddings }]
    {}

/-- Read an element. -/
def elementRecord : Scan ElementRecord :=
  Json.record "ElementDocument"
    [field "type" Json.text fun e kind => { e with kind },
      field "id" (Json.optional Json.text) fun e id => { e with id },
      field "keyword" Json.text fun e keyword => { e with keyword },
      field "name" Json.text fun e name => { e with name },
      field "description" Json.text fun e description => { e with description },
      field "line" (Json.optional Json.word32) fun e line => { e with line },
      field "tags" (Json.list tagRecord) fun e tags => { e with tags },
      field "before" (Json.list hookRecord) fun e before => { e with before },
      field "steps" (Json.list stepRecord) fun e steps => { e with steps },
      field "after" (Json.list hookRecord) fun e after => { e with after }]
    {}

/-- Read a feature. -/
def featureRecord : Scan FeatureRecord :=
  Json.record "FeatureDocument"
    [field "uri" (Json.optional Json.text) fun f uri => { f with uri },
      field "id" (Json.optional Json.text) fun f id => { f with id },
      field "keyword" Json.text fun f keyword => { f with keyword },
      field "name" Json.text fun f name => { f with name },
      field "description" Json.text fun f description => { f with description },
      field "line" (Json.optional Json.word32) fun f line => { f with line },
      field "tags" (Json.list tagRecord) fun f tags => { f with tags },
      field "elements" (Json.list elementRecord) fun f elements => { f with elements }]
    {}

/-- The kind of a cause. -/
def kindOf : Json.Cause → FaultKind
  | .endInValue | .endInText | .endInList | .endInObject => .unfinished
  | .wrongType .. | .wrongValue .. | .duplicateField _ => .data
  | _ => .malformed

/-- Read the features of a report. -/
def parse : Parser := fun text =>
  (Json.whole (Json.list featureRecord) text).mapError fun fault =>
    let p := fault.position text
    { kind := kindOf fault.cause
      message := fault.message text
      line := p.line
      column := p.column }

/-! ## Texts -/

/-- The events of the text of a report. -/
def read (uri text : String) : Except BuildError (List Event) :=
  readWith parse Base64.decodeText uri text

end ScenarioResults.Report
