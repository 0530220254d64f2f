import ScenarioResults.Duration
import ScenarioResults.Outcome

/-!
# The event stream

A run is reported as an ordered stream of events. `documentStart`, `feature`, `background`, `scenario`
and `endOfDocument` are structural: they open and close contexts. A step is declared, optionally bound
to the glue code that runs it, and resolved by a result. The remaining events add to the open context
or only inform.
-/

namespace ScenarioResults

/-- Raw bytes of an attachment. -/
abbrev Bytes := List UInt8

/-- A tag of a feature or scenario, with its leading `@`. -/
structure Tag where
  name : String
  line : Option UInt32 := none
  deriving DecidableEq, Repr, Inhabited

/-- Header of a feature, a scenario or a scenario outline. The identifier is one given by the
author; the description is the free text below the header. -/
structure Header where
  id : Option String := none
  keyword : String := ""
  name : String := ""
  description : String := ""
  line : Option UInt32 := none
  tags : List Tag := []
  deriving DecidableEq, Repr, Inhabited

/-- What identifies the block: its identifier, or its name when it has none. -/
def Header.declared (h : Header) : String := h.id.getD h.name

/-- Header of a background, whose name is often empty. -/
structure BackgroundHeader where
  keyword : String := ""
  name : String := ""
  description : String := ""
  line : Option UInt32 := none
  deriving DecidableEq, Repr, Inhabited

/-- Declaration of a step. The keyword has its trailing space. -/
structure StepHeader where
  keyword : String := ""
  name : String := ""
  line : Option UInt32 := none
  deriving DecidableEq, Repr, Inhabited

/-- The glue code that a step or hook is bound to. -/
structure Glue where
  location : Option String := none
  deriving DecidableEq, Repr, Inhabited

/-- How a step or hook went, with the message of the runner. -/
structure Verdict where
  outcome : Outcome
  duration : Duration := Duration.zero
  message : Option String := none
  deriving DecidableEq, Repr, Inhabited

/-- Where and why a document could not be parsed: the state of the parser, what it could not accept,
what it would have accepted, and the place. Lines and columns count from 1; the column is 0 when it
is unknown. -/
structure SyntaxFault where
  state : String := ""
  event : String := ""
  expected : List String := []
  uri : String := ""
  line : Nat := 0
  column : Nat := 0
  deriving DecidableEq, Repr, Inhabited

/-- One item of the stream. A step awaits its result; a background is adopted by the next scenario;
the header of a scenario outline only informs, as its examples arrive expanded. -/
inductive Event where
  | documentStart (uri : String)
  | feature (header : Header)
  | background (header : BackgroundHeader)
  | scenario (header : Header)
  | step (header : StepHeader)
  | binding (glue : Glue)
  | result (verdict : Verdict)
  | before (glue : Glue) (verdict : Verdict)
  | after (glue : Glue) (verdict : Verdict)
  | embedding (mimeType : String) (data : Bytes)
  | write (text : String)
  | outline (header : Header)
  | examples (name : String)
  | endOfDocument
  | syntaxError (fault : SyntaxFault)
  deriving DecidableEq, Repr, Inhabited

/-- The kind of an event, without its contents. -/
inductive EventKind where
  | documentStart | feature | background | scenario | step | binding | result | before | after
  | embedding | write | outline | examples | endOfDocument | syntaxError
  deriving DecidableEq, Repr, Inhabited

/-- The short name used in diagnostics. -/
def EventKind.label : EventKind → String
  | documentStart => "document-start"
  | feature => "feature"
  | background => "background"
  | scenario => "scenario"
  | step => "step"
  | binding => "match"
  | result => "result"
  | before => "before"
  | after => "after"
  | embedding => "embedding"
  | write => "write"
  | outline => "scenario-outline"
  | examples => "examples"
  | endOfDocument => "end-of-document"
  | syntaxError => "syntax-error"

/-- The kind of an event. -/
def Event.kind : Event → EventKind
  | documentStart _ => .documentStart
  | feature _ => .feature
  | background _ => .background
  | scenario _ => .scenario
  | step _ => .step
  | binding _ => .binding
  | result _ => .result
  | before .. => .before
  | after .. => .after
  | embedding .. => .embedding
  | write _ => .write
  | outline _ => .outline
  | examples _ => .examples
  | endOfDocument => .endOfDocument
  | syntaxError _ => .syntaxError

/-- Whether the event opens or closes a context. -/
def Event.isStructural : Event → Bool
  | documentStart _ | feature _ | background _ | scenario _ | endOfDocument => true
  | _ => false

end ScenarioResults
