import ScenarioResults.Builder.Basic
import ScenarioResults.Tree.Tally

/-!
# Processing events

`Builder.process` says for each event what the builder does in its open context; `processAll` feeds a
list and stops at the first event that is refused. An event that does not fit is refused, never put
somewhere else.
-/

namespace ScenarioResults.Builder

variable {σ : Type}

/-! ## Leaving a context -/

/-- Drop the awaiting step because a structural event arrived: an error in strict ordering, a warning
otherwise. -/
def dropPending (b : Builder σ) (event : EventKind) : Reaction σ :=
  match b.pending with
  | none => b.accept
  | some p =>
    let b := { b with pending := none }
    if b.settings.strict then b.refuse (.unresolvedStep p.step.name event)
    else b.accept [.stepAbandoned p.step.name event]

/-- Leave the open context for another one: the awaiting step is dropped and so is a background that no
scenario adopted. -/
def leave (b : Builder σ) (event : EventKind) : Reaction σ :=
  (b.dropPending event).andThen fun b =>
    b.accept (b.opened.background?.map fun name => .backgroundDiscarded name (some event)).toList

/-! ## Structural events -/

/-- Announce a document. -/
def documentStart (b : Builder σ) (uri : String) : Reaction σ :=
  match b.opened.uri? with
  | some pending => b.refuse (.outOfOrderDocument pending uri)
  | none => (b.leave .documentStart).andThen fun b => { b with opened := .uriSeen uri }.accept

/-- Open a feature; it belongs to the announced document, if one is. -/
def feature (b : Builder σ) (header : Header) : Reaction σ :=
  (b.leave .feature).andThen fun b =>
    let uri := b.opened.uri?
    { b with
      tree := b.tree.addFeature uri header
      opened := .inFeature b.tree.features.size }.accept [.featureOpened header.name uri]

/-- Open a background in the open feature. -/
def background (b : Builder σ) (header : BackgroundHeader) : Reaction σ :=
  if b.opened.background?.isSome then b.refuse (.nestedBackground header.name)
  else
    match b.opened.feature? with
    | none => b.unexpected .background
    | some i =>
      (b.leave .background).andThen fun b =>
        { b with opened := .inBackground i (Background.ofHeader header) {} }.accept

/-- Open a scenario in the open feature; it adopts the open background and what was held for it. -/
def scenario (b : Builder σ) (header : Header) : Reaction σ :=
  match b.opened.feature? with
  | none => b.unexpected .scenario
  | some i =>
    (b.dropPending .scenario).andThen fun b =>
      match b.tree.feature? i with
      | none => { b with opened := .idle }.unexpected .scenario
      | some owner =>
        { b with
          tree := b.tree.addScenario i (b.opened.adopted header)
          opened := .inScenario ⟨i, owner.scenarios.size⟩ }.accept

/-- Close the document: the awaiting step, an open background and an announced document without a
feature are dropped. -/
def endOfDocument (b : Builder σ) : Reaction σ :=
  let step := (b.pending.map fun p => Notice.stepCleared p.step.name).toList
  let context : List Notice :=
    match b.opened with
    | .inBackground _ background _ => [.backgroundDiscarded background.name none]
    | .uriSeen uri => [.documentWithoutFeature uri]
    | .idle | .inFeature _ | .inScenario _ => []
  { b with pending := none, opened := .idle }.accept (step ++ context)

/-! ## Events inside a background or scenario -/

/-- Change what is recorded for the open scenario. -/
def onScenario (b : Builder σ) (event : EventKind) (g : Scenario → Scenario) : Reaction σ :=
  match b.opened with
  | .inScenario id =>
    if (b.tree.scenario? id).isSome then { b with tree := b.tree.modifyScenario id g }.accept
    else b.unexpected event
  | _ => b.unexpected event

/-- Whether a background or a scenario is open. -/
def takesSteps (b : Builder σ) : Bool :=
  b.context == .inBackground || b.context == .inScenario

/-- Declare a step. One that still awaits its result is in the way in strict ordering and is dropped
otherwise. -/
def step (b : Builder σ) (header : StepHeader) : Reaction σ :=
  if b.takesSteps then
    match b.pending with
    | none => { b with pending := some { step := header } }.accept
    | some p =>
      if b.settings.strict then b.refuse (.duplicateStep p.step.name header.name)
      else
        { b with pending := some { step := header } }.accept
          [.stepOvertaken header.name p.step.name]
  else b.unexpected .step

/-- Bind the awaiting step. A second binding is refused in strict ordering and replaces the first
otherwise. -/
def binding (b : Builder σ) (glue : Glue) : Reaction σ :=
  match b.pending with
  | none => b.unexpected .binding
  | some p =>
    let bound := { b with pending := some { p with glue := some glue } }
    let location := glue.location.getD ""
    if p.glue.isNone then bound.accept
    else if b.settings.strict then b.refuse (.duplicateBinding location)
    else bound.accept [.bindingOvertaken location]

/-- Resolve the awaiting step: it joins the open background or the open scenario. -/
def result (b : Builder σ) (verdict : Verdict) : Reaction σ :=
  match b.pending with
  | none => b.unexpected .result
  | some p =>
    let b := { b with pending := none }
    let step := Step.settle p.step p.glue verdict
    match b.opened with
    | .inBackground i background held =>
      let background := { background with steps := background.steps ++ [step] }
      { b with opened := .inBackground i background held }.accept
    | _ => b.onScenario .result fun s => { s with steps := s.steps ++ [step] }

/-- Record a setup hook for the open scenario or for the one that adopts the open background. -/
def before (b : Builder σ) (hook : Hook) : Reaction σ :=
  match b.opened with
  | .inBackground i background held =>
    let held := { held with before := held.before ++ [hook] }
    { b with opened := .inBackground i background held }.accept
  | _ => b.onScenario .before fun s => { s with before := s.before ++ [hook] }

/-- Record a teardown hook for the open scenario or for the one that adopts the open background. -/
def after (b : Builder σ) (hook : Hook) : Reaction σ :=
  match b.opened with
  | .inBackground i background held =>
    let held := { held with after := held.after ++ [hook] }
    { b with opened := .inBackground i background held }.accept
  | _ => b.onScenario .after fun s => { s with after := s.after ++ [hook] }

/-- Store an attachment, then record its reference for the open scenario or for the one that adopts the
open background. -/
def embedding [AttachmentStore σ] (b : Builder σ) (mimeType : String) (data : Bytes) : Reaction σ :=
  if b.takesSteps then
    let (answer, store) := AttachmentStore.offer b.store mimeType data
    let b := { b with store }
    match answer with
    | .error fault => b.refuse (.attachmentRefused mimeType fault)
    | .ok filename =>
      let item : AttachmentRef := { mimeType, filename }
      match b.opened with
      | .inBackground i background held =>
        let held := { held with attachments := held.attachments ++ [item] }
        { b with opened := .inBackground i background held }.accept
      | _ => b.onScenario .embedding fun s => { s with attachments := s.attachments ++ [item] }
  else b.unexpected .embedding

/-! ## The stream -/

/-- React to an event. -/
def react [AttachmentStore σ] (b : Builder σ) : Event → Reaction σ
  | .documentStart uri => b.documentStart uri
  | .feature header => b.feature header
  | .background header => b.background header
  | .scenario header => b.scenario header
  | .step header => b.step header
  | .binding glue => b.binding glue
  | .result verdict => b.result verdict
  | .before glue verdict => b.before (Hook.settle glue verdict)
  | .after glue verdict => b.after (Hook.settle glue verdict)
  | .embedding mimeType data => b.embedding mimeType data
  | .write text => b.accept [.runnerWrote text]
  | .outline header => b.accept [.outlineSeen header.name]
  | .examples name => b.accept [.examplesSeen name]
  | .endOfDocument => b.endOfDocument
  | .syntaxError fault => b.refuse (.malformed fault)

/-- Process one event: tell that it arrived, then react to it. -/
def process [AttachmentStore σ] (b : Builder σ) (event : Event) : Reaction σ :=
  (b.accept [.received event.kind b.context]).andThen (·.react event)

/-- Process events in order, stopping at the first that is refused. -/
def processAll [AttachmentStore σ] (b : Builder σ) : List Event → Reaction σ
  | [] => b.accept
  | event :: events => (b.process event).andThen (·.processAll events)

/-- Tally the tree so far. -/
def finish (b : Builder σ) : Attempt Tree := b.tree.tally

end ScenarioResults.Builder
