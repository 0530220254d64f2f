import ScenarioResults.Builder.Error
import ScenarioResults.Notice
import ScenarioResults.Settings
import ScenarioResults.Tree.Basic

/-!
# The state of a builder

A builder owns the tree that grows, the store that receives attachments, the context that is open and
the step that awaits its result. The step waits beside the context because it can belong to a
background as well as to a scenario. Features and scenarios are known to the open context by position.
-/

namespace ScenarioResults

/-- What a background has gathered for the scenario that will adopt it. -/
structure Held where
  before : List Hook := []
  after : List Hook := []
  attachments : List AttachmentRef := []
  deriving DecidableEq, Repr, Inhabited

/-- The open context with what it knows: the announced document, or the position of the open feature
or scenario. -/
inductive Open where
  | idle
  | uriSeen (uri : String)
  | inFeature (feature : Nat)
  | inBackground (feature : Nat) (background : Background) (held : Held)
  | inScenario (id : ScenarioId)
  deriving DecidableEq, Repr, Inhabited

namespace Open

/-- The coarse view of the open context. -/
def context : Open → Context
  | idle => .idle
  | uriSeen _ => .uriSeen
  | inFeature _ => .inFeature
  | inBackground .. => .inBackground
  | inScenario _ => .inScenario

/-- The position of the open feature. -/
def feature? : Open → Option Nat
  | inFeature i | inBackground i _ _ => some i
  | inScenario id => some id.feature
  | idle | uriSeen _ => none

/-- The announced document that awaits its feature. -/
def uri? : Open → Option String
  | uriSeen uri => some uri
  | _ => none

/-- The name of the open background. -/
def background? : Open → Option String
  | inBackground _ background _ => some background.name
  | _ => none

/-- A scenario opened from this context: it adopts the background and what was held for it. -/
def adopted (o : Open) (header : Header) : Scenario :=
  match o with
  | inBackground _ background held =>
    { header
      background := some background
      before := held.before
      after := held.after
      attachments := held.attachments }
  | _ => { header }

end Open

/-- A declared step and its binding, if it has arrived, awaiting the result. -/
structure PendingStep where
  step : StepHeader
  glue : Option Glue := none
  deriving DecidableEq, Repr, Inhabited

/-- The state between two events: how events out of order are treated, the store that receives
attachments, the tree so far, the open context, and the step that awaits its result. -/
structure Builder (σ : Type) where
  settings : Settings := {}
  store : σ
  tree : Tree := {}
  opened : Open := .idle
  pending : Option PendingStep := none
  deriving DecidableEq, Repr, Inhabited

/-- What a builder does with an event: the builder afterwards, what is told about it, and why the
event was refused, if it was. -/
structure Reaction (σ : Type) where
  builder : Builder σ
  notices : List Notice := []
  error : Option BuildError := none
  deriving DecidableEq, Repr, Inhabited

namespace Reaction

variable {σ : Type}

/-- Go on with the builder left by a reaction, unless it refused. -/
def andThen (r : Reaction σ) (next : Builder σ → Reaction σ) : Reaction σ :=
  match r.error with
  | some _ => r
  | none =>
    let s := next r.builder
    { s with notices := r.notices ++ s.notices }

end Reaction

namespace Builder

variable {σ : Type}

/-- A builder with an empty tree. -/
def new (settings : Settings) (store : σ) : Builder σ := { settings, store }

/-- Go on from another tree. The open context and the awaiting step stay as they are. -/
def continuing (b : Builder σ) (tree : Tree) : Builder σ := { b with tree }

/-- The coarse view of the open context. -/
def context (b : Builder σ) : Context := b.opened.context

/-- Accept an event. -/
def accept (b : Builder σ) (notices : List Notice := []) : Reaction σ :=
  { builder := b, notices }

/-- Refuse an event. -/
def refuse (b : Builder σ) (error : BuildError) : Reaction σ :=
  { builder := b, error := some error }

/-- Refuse an event that does not fit the open context. -/
def unexpected (b : Builder σ) (event : EventKind) : Reaction σ :=
  b.refuse (.unexpectedEvent event b.context)

end Builder

end ScenarioResults
