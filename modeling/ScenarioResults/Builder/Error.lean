import ScenarioResults.Attachment
import ScenarioResults.Builder.Context

/-!
# Errors of building

Each constructor is one cause for which results cannot be built from a stream or a document;
`BuildError.message` is the only place that words them.
-/

namespace ScenarioResults

/-- Why an event or a document was refused: the event is out of order, a step or a binding overtakes
another one, the document could not be parsed, a status label is unknown, or an attachment could not
be decoded or stored. -/
inductive BuildError where
  | outOfOrderDocument (pending uri : String)
  | nestedBackground (name : String)
  | duplicateStep (pending step : String)
  | duplicateBinding (location : String)
  | unresolvedStep (step : String) (event : EventKind)
  | unexpectedEvent (event : EventKind) (context : Context)
  | malformed (fault : SyntaxFault)
  | unknownOutcome (status : String)
  | attachmentRefused (mimeType : String) (fault : StoreFault)
  deriving DecidableEq, Repr, Inhabited

/-- The text of an error. -/
def BuildError.message : BuildError → String
  | outOfOrderDocument pending uri =>
    "out-of-order document marker: received '" ++ uri ++ "' before '" ++ pending ++ "' was handled"
  | nestedBackground name =>
    "nested background '" ++ name ++ "': previous background was never adopted by a scenario"
  | duplicateStep pending step =>
    "step '" ++ step ++ "' received before previous step '" ++ pending ++ "' was handled"
  | duplicateBinding location =>
    "match '" ++ location ++ "' received before previous match was handled"
  | unresolvedStep step event =>
    "step '" ++ step ++ "' was never resolved before " ++ event.label
  | unexpectedEvent event context =>
    "unexpected " ++ event.label ++ " event while " ++ context.describe
  | malformed fault =>
    "malformed input: line " ++ toString fault.line ++ ", column " ++ toString fault.column ++
      ", uri " ++ fault.uri ++ ", state '" ++ fault.state ++ "', event '" ++ fault.event ++
      "', expected one of [" ++ ", ".intercalate fault.expected ++ "]"
  | unknownOutcome status => "outcome \"" ++ status ++ "\" is not recognised"
  | attachmentRefused mimeType fault =>
    "failed to store " ++ mimeType ++ " attachment: " ++ fault.message

end ScenarioResults
