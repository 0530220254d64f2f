import ScenarioResults.Notice
import ScenarioResults.Report.Replay

/-!
# Reading the text of a report

A blank text holds no features; a text that is no report becomes a single event that tells where it is
wrong, which a builder refuses; any other text is replayed. The parser of reports is a parameter: it
gives the features of a text or a fault with all that is told about it.
-/

namespace ScenarioResults.Report

/-- The kind of a fault: the source fails, the text is malformed, it holds wrong data, or it ends too
early. -/
inductive FaultKind where
  | source
  | malformed
  | data
  | unfinished
  deriving DecidableEq, Repr, Inhabited

/-- The name of a kind of fault. -/
def FaultKind.label : FaultKind → String
  | source => "io"
  | malformed => "syntax"
  | data => "data"
  | unfinished => "eof"

/-- Why a text is no report, as its parser tells it. -/
structure ParseFault where
  kind : FaultKind := .source
  message : String := ""
  line : Nat := 0
  column : Nat := 0
  deriving DecidableEq, Repr, Inhabited

/-- What finds the features in a text, or says why it is no report. -/
abbrev Parser := String → Except ParseFault (List FeatureRecord)

/-- The fault of the document with the given name, as an event tells it. -/
def syntaxFault (uri : String) (fault : ParseFault) : SyntaxFault :=
  { state := fault.kind.label
    event := fault.message
    expected := ["feature"]
    uri
    line := fault.line
    column := fault.column }

/-- The events of a text, which `uri` names. -/
def readWith (parse : Parser) (decode : Decoder) (uri text : String) :
    Except BuildError (List Event) :=
  if Text.isBlankText text then .ok []
  else
    match parse text with
    | .ok features => events decode uri features
    | .error fault => .ok [.syntaxError (syntaxFault uri fault)]

/-- What is told about reading a text: only that it is blank. -/
def readNotices (uri text : String) : List Notice :=
  if Text.isBlankText text then [.documentBlank uri] else []

end ScenarioResults.Report
