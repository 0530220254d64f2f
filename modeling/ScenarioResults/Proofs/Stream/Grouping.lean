import Mathlib.Tactic.Common
import ScenarioResults.Content

/-!
# Grouping a trace

What a trace says was run, read off the list of its events without a builder. Every structural event
opens a segment that lasts until the next one. A feature has the scenarios of the segments that
follow it up to the next document or feature; a scenario has the steps, hooks and attachments of its
own segment, after the background, the hooks and the attachments of a background segment directly
before it.

## Shape of the definitions

An `Arrival` is an event with the reference that its store gave for the payload, so that nothing
below asks the store again. `grouped` splits arrivals into segments and assembles features from
them.
-/

namespace ScenarioResults.Stream

/-- An event with the reference to its payload, if it has one and a store took it. -/
structure Arrival where
  event : Event
  reference : Option AttachmentRef := none

/-- An event arrives: a payload is offered to the store. -/
def receive {σ : Type} [AttachmentStore σ] (store : σ) : Event → Arrival × σ
  | .embedding mimeType data =>
    let (answer, store) := AttachmentStore.offer store mimeType data
    ({ event := .embedding mimeType data
       reference := answer.toOption.map fun filename => { mimeType, filename } }, store)
  | e => ({ event := e }, store)

/-- The events arrive one after the other at the same store. -/
def arrivals {σ : Type} [AttachmentStore σ] (store : σ) : List Event → List Arrival
  | [] => []
  | e :: es => (receive store e).1 :: arrivals (receive store e).2 es

/-! ## Items of a segment -/

namespace Arrival

/-- The step that the arrival declares. -/
def step? (a : Arrival) : Option StepHeader :=
  match a.event with
  | .step header => some header
  | _ => none

/-- The glue code that the arrival binds a step to. -/
def glue? (a : Arrival) : Option Glue :=
  match a.event with
  | .binding glue => some glue
  | _ => none

/-- The setup hook that the arrival reports. -/
def before? (a : Arrival) : Option Hook :=
  match a.event with
  | .before glue verdict => some { location := glue.location, verdict }
  | _ => none

/-- The teardown hook that the arrival reports. -/
def after? (a : Arrival) : Option Hook :=
  match a.event with
  | .after glue verdict => some { location := glue.location, verdict }
  | _ => none

/-- Whether the arrival belongs to the segment that is open. -/
def isInner (a : Arrival) : Bool := !a.event.isStructural

end Arrival

/-- The latest step declared in a list of arrivals. -/
def latestStep? (as : List Arrival) : Option StepHeader := as.reverse.findSome? Arrival.step?

/-- The latest binding since the latest step of a list of arrivals. -/
def latestGlue? (as : List Arrival) : Option Glue :=
  (as.reverse.takeWhile (·.step?.isNone)).findSome? Arrival.glue?

/-- The step that an arrival resolves after the earlier ones of its segment. -/
def resolved? (earlier : List Arrival) (a : Arrival) : Option Step :=
  match a.event with
  | .result verdict =>
    (latestStep? earlier).map fun header =>
      { keyword := header.keyword
        name := header.name
        line := header.line
        location := (latestGlue? earlier).bind Glue.location
        verdict }
  | _ => none

/-- The steps resolved by a list of arrivals, which follow the earlier ones of their segment. -/
def stepsAfter (earlier : List Arrival) : List Arrival → List Step
  | [] => []
  | a :: as => (resolved? earlier a).toList ++ stepsAfter (earlier ++ [a]) as

/-! ## Segments -/

/-- A structural event and the arrivals up to the next one. -/
structure Segment where
  opener : Event
  body : List Arrival

/-- The segments of a list of arrivals. -/
def segments : List Arrival → List Segment
  | [] => []
  | a :: as =>
    if a.isInner then segments as
    else { opener := a.event, body := as.takeWhile Arrival.isInner } :: segments as

/-- The header of a segment that a background opens, with the arrivals of the segment. -/
def Segment.background? (s : Segment) : Option (BackgroundHeader × List Arrival) :=
  match s.opener with
  | .background header => some (header, s.body)
  | _ => none

/-- The document that an event announces. -/
def announced? : Event → Option String
  | .documentStart uri => some uri
  | _ => none

/-- A scenario from its header, the background segment before it and the arrivals of its own
segment. Steps of the background belong to the background, its other items to the scenario. -/
def scenarioOf (header : Header) (background : Option (BackgroundHeader × List Arrival))
    (body : List Arrival) : Scenario :=
  let held := background.elim [] Prod.snd
  { header
    background := background.map fun (h, as) =>
      { keyword := h.keyword, name := h.name, line := h.line, steps := stepsAfter [] as }
    before := (held ++ body).filterMap Arrival.before?
    steps := stepsAfter [] body
    after := (held ++ body).filterMap Arrival.after?
    attachments := (held ++ body).filterMap Arrival.reference }

/-- The scenarios of a feature from the segments that follow: those up to the next document or
feature. -/
def scenariosFrom (previous : Segment) : List Segment → List Scenario
  | [] => []
  | s :: ss =>
    match s.opener with
    | .scenario header => scenarioOf header previous.background? s.body :: scenariosFrom s ss
    | .background _ => scenariosFrom s ss
    | _ => []

/-- The features of a list of segments, each with the document announced directly before it. -/
def featuresFrom (previous : Event) : List Segment → List Feature
  | [] => []
  | s :: ss =>
    match s.opener with
    | .feature header =>
      { uri := announced? previous, header, scenarios := scenariosFrom s ss } ::
        featuresFrom s.opener ss
    | _ => featuresFrom s.opener ss

/-- The features of a list of arrivals, which starts as if a document had just ended. -/
def grouped (as : List Arrival) : List Feature := featuresFrom .endOfDocument (segments as)

/-! ## One arrival more -/

/-- A later declaration takes the place of the earlier ones. -/
theorem latestStep?_concat (as : List Arrival) (a : Arrival) :
    latestStep? (as ++ [a]) = a.step?.or (latestStep? as) := by
  simp only [latestStep?, List.reverse_append, List.reverse_singleton, List.singleton_append,
    List.findSome?_cons]
  cases a.step? <;> rfl

/-- A step that is declared anew is not bound. -/
theorem latestGlue?_concat_step {a : Arrival} (h : a.step?.isSome) (as : List Arrival) :
    latestGlue? (as ++ [a]) = none := by
  have hstep : a.step?.isNone = false := by simpa using h
  simp [latestGlue?, hstep]

/-- A later binding of the same step takes the place of the earlier ones. -/
theorem latestGlue?_concat {a : Arrival} (h : a.step? = none) (as : List Arrival) :
    latestGlue? (as ++ [a]) = a.glue?.or (latestGlue? as) := by
  simp only [latestGlue?, List.reverse_append, List.reverse_singleton, List.singleton_append,
    List.takeWhile_cons, h, Option.isNone_none, if_true, List.findSome?_cons]
  cases a.glue? <;> rfl

/-- The last arrival resolves the latest step, if any. -/
theorem stepsAfter_concat (earlier as : List Arrival) (a : Arrival) :
    stepsAfter earlier (as ++ [a]) =
      stepsAfter earlier as ++ (resolved? (earlier ++ as) a).toList := by
  induction as generalizing earlier with
  | nil => simp [stepsAfter]
  | cons x as ih => simp [stepsAfter, ih]

end ScenarioResults.Stream
