import ScenarioResults.Proofs.Builder.Refusal
import ScenarioResults.Proofs.Wait

/-!
# The turns of a run

A run feeds events to a builder, each of them accepted or refused. A `Turn` is one event with the
builder that it finds, so what the builder makes of the event can be read off the turn: its
reaction, and the entries that this leaves in a log of notices and errors. What an accepted event
tells is listed by `told`; a refused one tells of its arrival and leaves its cause.

Something that a builder shows may come to wait there in one turn and end its wait in a later one.
`Follows` says that this happens as a `Wait` describes it, and then the wait accounts for what the
builder shows when the run is over, and for what the turns do at each ending.
-/

namespace ScenarioResults

namespace Builder

variable {σ : Type} {b b' : Builder σ} {e : Event} {error : BuildError}

/-! ## What is told -/

/-- What is told when the builder leaves its open context. -/
def partings (b : Builder σ) (kind : EventKind) : List Notice :=
  (b.pending.map fun p => .stepAbandoned p.step.name kind).toList ++
    (b.opened.background?.map fun name => .backgroundDiscarded name (some kind)).toList

/-- What is told of an event that is accepted, besides its arrival. -/
def told (b : Builder σ) : Event → List Notice
  | .documentStart _ => b.partings .documentStart
  | .feature header => b.partings .feature ++ [.featureOpened header.name b.opened.uri?]
  | .background _ => b.partings .background
  | .scenario _ => (b.pending.map fun p => .stepAbandoned p.step.name .scenario).toList
  | .step header => (b.pending.map fun p => .stepOvertaken header.name p.step.name).toList
  | .binding glue =>
    if (b.pending.bind PendingStep.glue).isSome then [.bindingOvertaken (glue.location.getD "")]
    else []
  | .write text => [.runnerWrote text]
  | .outline header => [.outlineSeen header.name]
  | .examples name => [.examplesSeen name]
  | .endOfDocument =>
    (b.pending.map fun p => .stepCleared p.step.name).toList ++
      (b.opened.background?.map fun name => .backgroundDiscarded name none).toList ++
        (b.opened.uri?.map .documentWithoutFeature).toList
  | _ => []

/-- Behind a reaction that accepts, the second one tells what is left to tell. -/
theorem notices_andThen {r : Reaction σ} {next : Builder σ → Reaction σ} (h : r.error = none) :
    (r.andThen next).notices = r.notices ++ (next r.builder).notices := by
  simp [Reaction.andThen, h]

/-- In lenient ordering the awaiting step that is dropped is told. -/
theorem notices_dropPending {kind : EventKind} (hready : b.Ready) :
    (b.dropPending kind).notices =
      (b.pending.map fun p => .stepAbandoned p.step.name kind).toList := by
  unfold dropPending
  cases hpending : b.pending with
  | none => rfl
  | some p =>
      have hlenient : ¬ b.settings.strict = true := fun hs => by simp [hready hs] at hpending
      simp [hlenient, accept]

/-- Of a context that is left its partings are told. -/
theorem notices_leave {kind : EventKind} (hready : b.Ready) :
    (b.leave kind).notices = b.partings kind := by
  rw [leave, notices_andThen ((error_dropPending b kind).mpr hready), notices_dropPending hready,
    builder_dropPending]
  rfl

/-- Of a placed item nothing is told. -/
theorem notices_place (b : Builder σ) (kind : EventKind) (item : Item) :
    (b.place kind item).notices = [] := by
  unfold place onScenario
  cases b.opened with
  | inScenario id => dsimp only; split <;> rfl
  | idle | uriSeen | inFeature | inBackground => rfl

section Process

variable [AttachmentStore σ]

/-- An accepted event tells what is listed for it. -/
theorem notices_react_of_accepted (h : (b.react e).error = none) :
    (b.react e).notices = b.told e := by
  -- the rule by which the event was accepted decides each guard on the way to its notices
  have haccepts := accepts_process (b := b) (e := e) h
  generalize (b.process e).builder = b' at haccepts
  cases haccepts with
  | documentStart hopen hready =>
      have hleave := (error_leave b .documentStart).mpr hready
      simp [react, documentStart, hopen, notices_andThen hleave, notices_leave hready, accept, told]
  | feature hready =>
      have hleave := (error_leave b .feature).mpr hready
      simp [react, feature, notices_andThen hleave, notices_leave hready, builder_leave, accept,
        told]
  | background hopen hfeature hready =>
      have hleave := (error_leave b .background).mpr hready
      simp [react, background, hopen, hfeature, notices_andThen hleave, notices_leave hready,
        accept, told]
  | scenario hfeature howner hready =>
      have hdrop := (error_dropPending b .scenario).mpr hready
      simp [react, scenario, hfeature, howner, notices_andThen hdrop, notices_dropPending hready,
        builder_dropPending, accept, told]
  | step hopen hready =>
      cases hpending : b.pending with
      | none => simp [react, step, hopen, hpending, accept, told]
      | some p =>
          have hlenient : ¬ b.settings.strict = true := fun hs => by simp [hready hs] at hpending
          simp [react, step, hopen, hpending, hlenient, accept, told]
  | binding hpending hglue =>
      rename_i p
      cases hbound : p.glue with
      | none => simp [react, binding, hpending, hbound, accept, told]
      | some old =>
          have hlenient : ¬ b.settings.strict = true := fun hs => by simp [hglue hs] at hbound
          simp [react, binding, hpending, hbound, hlenient, accept, told]
  | hold hyields | record hyields =>
      cases hyields with
      | result hpending => simp [react, result_eq_place, hpending, notices_place, told]
      | before => simp [react, before_eq_place, notices_place, told]
      | after => simp [react, after_eq_place, notices_place, told]
      | embedding hoffer =>
          rw [react, embedding_eq_place, hoffer]
          split
          · exact notices_place _ _ _
          · rfl
  | write | outline | examples => rfl
  | endOfDocument =>
      rw [react, endOfDocument, told]
      cases b.opened <;> simp [accept, Open.background?, Open.uri?]

end Process

end Builder

/-! ## Logs -/

/-- One line of a log of notices and errors. -/
inductive Record where
  | told (n : Notice)
  | refused (error : BuildError)
  deriving DecidableEq, Repr

/-- A record with the event that it is about. -/
structure LogEntry where
  event : Event
  record : Record
  deriving DecidableEq, Repr

/-- The step that the record says is dropped. -/
def Record.step? : Record → Option String
  | told (.stepAbandoned step _) | told (.stepOvertaken _ step) | told (.stepCleared step)
  | refused (.unresolvedStep step _) => some step
  | _ => none

/-- The background that the record says is discarded. -/
def Record.background? : Record → Option String
  | told (.backgroundDiscarded name _) => some name
  | _ => none

/-- An event with the builder that it finds. -/
structure Turn (σ : Type) where
  builder : Builder σ
  event : Event

namespace Turn

variable {σ : Type} [AttachmentStore σ]

/-- What the builder makes of the event. -/
def reaction (t : Turn σ) : Reaction σ := t.builder.process t.event

/-- The event, if it is accepted. -/
def accepted? (t : Turn σ) : Option Event := if t.reaction.error.isNone then some t.event else none

/-- What the turn leaves in a log. -/
def entries (t : Turn σ) : List LogEntry :=
  (t.reaction.notices.map Record.told ++ (t.reaction.error.map Record.refused).toList).map
    (⟨t.event, ·⟩)

/-- The entries that say that a step is dropped. -/
def drops (t : Turn σ) : List LogEntry := t.entries.filter (·.record.step?.isSome)

/-- The entries that say that a background is discarded. -/
def discards (t : Turn σ) : List LogEntry := t.entries.filter (·.record.background?.isSome)

variable {b : Builder σ} {e : Event} {error : BuildError}

/-- The event of a turn that accepts is the accepted one. -/
theorem accepted?_of_accepted (h : (b.process e).error = none) :
    (⟨b, e⟩ : Turn σ).accepted? = some e := by
  rw [Builder.error_process] at h
  simp [accepted?, reaction, h]

/-- A turn that refuses has no accepted event. -/
theorem accepted?_of_refused (h : (b.process e).error = some error) :
    (⟨b, e⟩ : Turn σ).accepted? = none := by
  rw [Builder.error_process] at h
  simp [accepted?, reaction, h]

/-- A turn that accepts logs the arrival and what is told of the event. -/
theorem entries_of_accepted (h : (b.process e).error = none) :
    (⟨b, e⟩ : Turn σ).entries =
      ⟨e, .told (.received e.kind b.context)⟩ :: (b.told e).map fun n => ⟨e, .told n⟩ := by
  have hnotices : (b.process e).notices = .received e.kind b.context :: b.told e := by
    rw [← Builder.notices_react_of_accepted (b := b) h]
    exact Builder.notices_andThen rfl
  rw [Builder.error_process] at h
  simp [entries, reaction, h, hnotices]

/-- A turn that refuses logs the arrival and the error. -/
theorem entries_of_refused (hb : b.Anchored) (h : (b.process e).error = some error) :
    (⟨b, e⟩ : Turn σ).entries =
      [⟨e, .told (.received e.kind b.context)⟩, ⟨e, .refused error⟩] := by
  have hnotices : (b.process e).notices = [.received e.kind b.context] := by
    obtain ⟨b', -, hreact⟩ := Builder.refuses_react hb h
    have hnone : (b.react e).notices = [] := by
      rw [hreact]
      rfl
    exact (Builder.notices_andThen rfl).trans (congrArg _ hnone)
  rw [Builder.error_process] at h
  simp [entries, reaction, h, hnotices]

end Turn

/-! ## Runs -/

namespace Builder

variable {σ ω φ β : Type} [AttachmentStore σ] {b : Builder σ}

/-- The turns of a run. -/
def turns (b : Builder σ) : List Event → List (Turn σ)
  | [] => []
  | e :: events => ⟨b, e⟩ :: (b.process e).builder.turns events

/-- What a builder shows comes to wait there and ends its wait as the wait describes it. -/
structure Follows (k : Wait (Turn σ) ω φ) (view : Builder σ → Option ω) : Prop where
  next : ∀ {b : Builder σ}, b.Anchored → ∀ e, view (b.process e).builder = k.next ⟨b, e⟩ (view b)
  starts : ∀ {b : Builder σ}, b.Anchored → ∀ e, ∀ w ∈ view b,
    (k.starts? ⟨b, e⟩).isSome → (k.ends? ⟨b, e⟩ w).isSome

variable {k : Wait (Turn σ) ω φ} {view : Builder σ → Option ω}

/-- The first turn of a run decides of what it ends. -/
theorem Follows.accounted_cons (h : Follows k view) (hb : b.Anchored) (e : Event)
    (events : List Event) :
    k.accounted (view b) (b.turns (e :: events)) =
      ((k.ending? ⟨b, e⟩ (view b)).map Fate.ended).toList ++
        k.accounted (view (b.process e).builder) ((b.process e).builder.turns events) := by
  rw [turns, Wait.accounted_cons (h.starts hb e), h.next hb e]

/-- The endings of a run are those of its first turn and those of the others. -/
theorem Follows.endings_cons (h : Follows k view) (hb : b.Anchored) (e : Event)
    (events : List Event) :
    k.endings (view b) (b.turns (e :: events)) =
      (k.ending? ⟨b, e⟩ (view b)).toList ++
        k.endings (view (b.process e).builder) ((b.process e).builder.turns events) := by
  rw [turns, Wait.endings_cons (h.starts hb e), h.next hb e]

/-- What still waits when the run is over is what the builder shows. -/
theorem Follows.waiting (h : Follows k view) (hb : b.Anchored) (events : List Event) :
    (k.accounted (view b) (b.turns events)).filterMap Fate.waiting? =
      (view (b.feed events)).toList := by
  induction events generalizing b with
  | nil =>
      rw [turns, Wait.accounted_nil, feed, List.foldl_nil]
      cases view b <;> rfl
  | cons e events ih =>
      rw [h.accounted_cons hb, List.filterMap_append, ih (anchored_process hb e)]
      cases k.ending? ⟨b, e⟩ (view b) <;> rfl

/-- What each turn leaves when it ends a wait, all turns leave of all that ends. -/
theorem Follows.ended (h : Follows k view) {left : Turn σ → List β} {leaves? : φ → Option β}
    (hturn : ∀ {b : Builder σ}, b.Anchored → ∀ e,
      left ⟨b, e⟩ = (k.ending? ⟨b, e⟩ (view b)).toList.filterMap leaves?)
    (hb : b.Anchored) (events : List Event) :
    (b.turns events).flatMap left = (k.endings (view b) (b.turns events)).filterMap leaves? := by
  induction events generalizing b with
  | nil => rw [turns, Wait.endings_nil, List.flatMap_nil, List.filterMap_nil]
  | cons e events ih =>
      rw [h.endings_cons hb, List.filterMap_append, ← ih (anchored_process hb e), turns,
        List.flatMap_cons, hturn hb e]

end Builder

end ScenarioResults
