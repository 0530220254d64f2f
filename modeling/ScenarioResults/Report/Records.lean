/-!
# Records of a report

A report document is a list of features, each with its backgrounds and scenarios as elements. Every
field has a default, so that a report may leave out what it has nothing to say about.
-/

namespace ScenarioResults.Report

/-- A tag as written in a report. -/
structure TagRecord where
  name : String := ""
  line : Option UInt32 := none
  deriving DecidableEq, Repr, Inhabited

/-- Where the glue code is. -/
structure MatchRecord where
  location : Option String := none
  deriving DecidableEq, Repr, Inhabited

/-- How a step or hook went: a status label, the time spent in nanoseconds, and the message of the
runner. -/
structure ResultRecord where
  status : String := ""
  duration : Option UInt64 := none
  message : Option String := none
  deriving DecidableEq, Repr, Inhabited

/-- An attachment. The payload is encoded as a text. -/
structure EmbeddingRecord where
  mimeType : String := ""
  data : String := ""
  deriving DecidableEq, Repr, Inhabited

/-- A setup or teardown hook, with the texts and attachments that came meanwhile. -/
structure HookRecord where
  glue : Option MatchRecord := none
  result : ResultRecord := {}
  output : List String := []
  embeddings : List EmbeddingRecord := []
  deriving DecidableEq, Repr, Inhabited

/-- A step, which has a result if it was run, with the texts and attachments that came meanwhile. -/
structure StepRecord where
  keyword : String := ""
  name : String := ""
  line : Option UInt32 := none
  glue : Option MatchRecord := none
  result : Option ResultRecord := none
  output : List String := []
  embeddings : List EmbeddingRecord := []
  deriving DecidableEq, Repr, Inhabited

/-- A background, scenario or scenario outline. Anything whose kind is neither `background` nor
`scenario_outline` is a scenario. -/
structure ElementRecord where
  kind : String := ""
  id : Option String := none
  keyword : String := ""
  name : String := ""
  description : String := ""
  line : Option UInt32 := none
  tags : List TagRecord := []
  before : List HookRecord := []
  steps : List StepRecord := []
  after : List HookRecord := []
  deriving DecidableEq, Repr, Inhabited

/-- A feature, with its backgrounds and scenarios in order of execution. -/
structure FeatureRecord where
  uri : Option String := none
  id : Option String := none
  keyword : String := ""
  name : String := ""
  description : String := ""
  line : Option UInt32 := none
  tags : List TagRecord := []
  elements : List ElementRecord := []
  deriving DecidableEq, Repr, Inhabited

end ScenarioResults.Report
