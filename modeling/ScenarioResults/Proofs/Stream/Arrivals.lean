import ScenarioResults.Proofs.Stream.Extension

/-!
# Arrivals part by part

How arrivals are read when a list of events is put together from parts: the store takes the payloads
of one part before those of the next, hooks and references come part after part, and a part without
structural events belongs to the segment in front of it.
-/

namespace ScenarioResults.Stream

variable {earlier as bs : List Arrival} {xs ys events : List Event}

/-! ## Payloads -/

/-- The payload that an event carries. -/
def offer? : Event → Option (String × Bytes)
  | .embedding mimeType data => some (mimeType, data)
  | _ => none

/-- The payloads of events in order. -/
def offers (events : List Event) : List (String × Bytes) := events.filterMap offer?

/-- The payloads of one part come before those of the next. -/
theorem offers_append (xs ys : List Event) : offers (xs ++ ys) = offers xs ++ offers ys :=
  List.filterMap_append

/-- The payloads of parts come part by part. -/
theorem offers_flatMap {α : Type} (f : α → List Event) (xs : List α) :
    offers (xs.flatMap f) = xs.flatMap fun x => offers (f x) := List.filterMap_flatMap

section Store

variable {σ : Type} [AttachmentStore σ] (store : σ)

/-- The references under which a store keeps payloads that are offered one after the other. -/
def references (store : σ) : List (String × Bytes) → List AttachmentRef
  | [] => []
  | (mimeType, data) :: offers =>
    let (answer, store) := AttachmentStore.offer store mimeType data
    (answer.toOption.map fun filename => { mimeType, filename }).toList ++ references store offers

/-- One arrival offers its payload. -/
theorem store_receive_eq (e : Event) : (receive store e).2 = offerAll store (offers [e]) := by
  cases e <;> rfl

/-- Payloads are offered one part after the other. -/
theorem offerAll_append (xs ys : List (String × Bytes)) :
    offerAll store (xs ++ ys) = offerAll (offerAll store xs) ys := List.foldl_append

/-- The second part arrives at a store that has taken the payloads of the first. -/
theorem arrivals_append :
    arrivals store (xs ++ ys) = arrivals store xs ++ arrivals (offerAll store (offers xs)) ys := by
  induction xs generalizing store with
  | nil => rfl
  | cons x xs ih =>
      have hoffers : offers (x :: xs) = offers [x] ++ offers xs := offers_append [x] xs
      rw [List.cons_append, arrivals, arrivals, ih, store_receive_eq, hoffers, offerAll_append,
        List.cons_append]

/-- A builder that accepts events has offered their payloads to its store. -/
theorem store_processAll {b : Builder σ} (h : (b.processAll events).error = none) :
    (b.processAll events).builder.store = offerAll b.store (offers events) := by
  induction events generalizing b with
  | nil => rfl
  | cons e events ih =>
      have hoffers : offers (e :: events) = offers [e] ++ offers events := offers_append [e] events
      rw [Builder.processAll, Builder.error_andThen] at h
      rw [Builder.processAll, Builder.builder_andThen h.1, ih h.2,
        store_receive (Builder.accepts_process h.1), store_receive_eq, hoffers, offerAll_append]

/-- The references of arrivals are those under which the store keeps their payloads. -/
theorem filterMap_reference_arrivals (events : List Event) :
    (arrivals store events).filterMap Arrival.reference = references store (offers events) := by
  induction events generalizing store with
  | nil => rfl
  | cons e events ih =>
      cases e with
      | embedding mimeType data =>
          simp only [arrivals, receive, offers, offer?, List.filterMap_cons, references, ih]
          cases (AttachmentStore.offer store mimeType data).1 <;> rfl
      | _ => exact ih store

/-! ## Readings of single arrivals -/

/-- Every event arrives once, in its place. -/
theorem map_event_arrivals (events : List Event) :
    (arrivals store events).map Arrival.event = events := by
  induction events generalizing store with
  | nil => rfl
  | cons e events ih => simp [arrivals, ih]

/-- What is read off the event of each arrival is read off the events. -/
theorem filterMap_event_arrivals {α : Type} (f : Event → Option α) (events : List Event) :
    (arrivals store events).filterMap (fun a => f a.event) = events.filterMap f := by
  conv_rhs => rw [← map_event_arrivals store events, List.filterMap_map]
  rfl

/-- Only events of the list arrive. -/
theorem event_mem_of_mem_arrivals {a : Arrival} (h : a ∈ arrivals store events) :
    a.event ∈ events := by
  rw [← map_event_arrivals store events]
  exact List.mem_map_of_mem h

/-- Events inside a segment arrive inside it. -/
theorem isInner_of_mem_arrivals (h : AllInner events) :
    ∀ a ∈ arrivals store events, a.isInner = true := by
  intro a ha
  rw [Arrival.isInner, h a.event (event_mem_of_mem_arrivals store ha)]
  rfl

/-- The setup hook that an event reports. -/
def setup? : Event → Option Hook
  | .before glue verdict => some { location := glue.location, verdict }
  | _ => none

/-- The teardown hook that an event reports. -/
def teardown? : Event → Option Hook
  | .after glue verdict => some { location := glue.location, verdict }
  | _ => none

/-- The setup hooks of arrivals are those of their events. -/
theorem filterMap_before?_arrivals (events : List Event) :
    (arrivals store events).filterMap Arrival.before? = events.filterMap setup? := by
  have hsetup : Arrival.before? = fun a => setup? a.event := by
    funext ⟨e, reference⟩
    cases e <;> rfl
  rw [hsetup, filterMap_event_arrivals]

/-- The teardown hooks of arrivals are those of their events. -/
theorem filterMap_after?_arrivals (events : List Event) :
    (arrivals store events).filterMap Arrival.after? = events.filterMap teardown? := by
  have hteardown : Arrival.after? = fun a => teardown? a.event := by
    funext ⟨e, reference⟩
    cases e <;> rfl
  rw [hteardown, filterMap_event_arrivals]

end Store

/-! ## Resolved steps -/

/-- The second part resolves steps after what the first has declared and bound. -/
theorem stepsAfter_append (earlier as bs : List Arrival) :
    stepsAfter earlier (as ++ bs) = stepsAfter earlier as ++ stepsAfter (earlier ++ as) bs := by
  induction as generalizing earlier with
  | nil => simp [stepsAfter]
  | cons a as ih => simp [stepsAfter, ih]

/-- Asides resolve no step. -/
theorem stepsAfter_of_asides (h : ∀ a ∈ as, isAside a.event = true) (earlier : List Arrival) :
    stepsAfter earlier as = [] := by
  induction as generalizing earlier with
  | nil => rfl
  | cons a as ih =>
      have haside := h a List.mem_cons_self
      have hnone : resolved? earlier a = none := by
        unfold resolved?
        split
        · next hevent => simp [hevent, isAside] at haside
        · rfl
      rw [stepsAfter, hnone, ih fun x hx => h x (List.mem_cons_of_mem a hx)]
      rfl

/-! ## Segments -/

/-- Inner arrivals in front open no segment. -/
theorem segments_append (h : ∀ a ∈ as, a.isInner = true) : segments (as ++ bs) = segments bs := by
  induction as with
  | nil => rfl
  | cons a as ih =>
      rw [List.cons_append, segments, if_pos (h a List.mem_cons_self)]
      exact ih fun x hx => h x (List.mem_cons_of_mem a hx)

/-- A structural arrival opens a segment with the inner ones that follow it. -/
theorem segments_opener {a : Arrival} (ha : a.isInner = false) (h : ∀ x ∈ as, x.isInner = true) :
    segments (a :: (as ++ bs)) =
      { opener := a.event, body := as ++ bs.takeWhile Arrival.isInner } :: segments bs := by
  rw [segments, ha, if_neg Bool.false_ne_true, segments_append h, List.takeWhile_append_of_pos h]

/-- The background that a segment leaves for a scenario behind it, with what it holds for it. -/
def Segment.waiting? (s : Segment) : Option (Background × Held) :=
  s.background?.map fun (header, as) =>
    ({ keyword := header.keyword
       name := header.name
       line := header.line
       steps := stepsAfter [] as },
      { before := as.filterMap Arrival.before?
        after := as.filterMap Arrival.after?
        attachments := as.filterMap Arrival.reference })

/-- A scenario behind a segment adopts what waits in it. -/
theorem scenarioOf_eq (header : Header) (s : Segment) (body : List Arrival) :
    scenarioOf header s.background? body =
      let held := s.waiting?.elim {} Prod.snd
      { header
        background := s.waiting?.map Prod.fst
        before := held.before ++ body.filterMap Arrival.before?
        steps := stepsAfter [] body
        after := held.after ++ body.filterMap Arrival.after?
        attachments := held.attachments ++ body.filterMap Arrival.reference } := by
  unfold Segment.waiting? scenarioOf
  cases s.background? <;> simp

end ScenarioResults.Stream
