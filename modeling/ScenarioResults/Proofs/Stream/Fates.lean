import ScenarioResults.Proofs.Builder.Turns
import ScenarioResults.Proofs.Stream.Ordering
import ScenarioResults.Proofs.Stream.Protocol

/-!
# The fates of steps and backgrounds

A declared step waits for its result in `Builder.pending`, and a background waits in the open
context for the scenario that adopts it, gathering steps, hooks and attachments meanwhile.
`stepWait` and `backgroundWait` say for each turn of a run what it does to them. A builder follows
both waits turn by turn (`follows_pending`, `follows_gathered`), and of each step and background
that it gives up it leaves one entry in the log (`drops_eq`, `discards_eq`).
-/

namespace ScenarioResults

/-- The open background with what it has gathered. -/
def Open.gathered? : Open → Option (Background × Held)
  | .inBackground _ background held => some (background, held)
  | .idle | .uriSeen _ | .inFeature _ | .inScenario _ => none

/-- The open background is the one that gathers. -/
theorem Open.background?_eq (o : Open) :
    o.background? = o.gathered?.map fun w => w.1.name := by
  cases o <;> rfl

namespace Stream

open Builder (Accepts Refuses Follows Yields)

variable {σ : Type}

/-! ## Steps -/

/-- How the wait of a step ends: with its result, or given up with an entry in the log. -/
inductive StepEnd where
  | settled (s : Step)
  | dropped (entry : LogEntry)
  deriving DecidableEq, Repr

namespace StepEnd

/-- The step with its result. -/
def settled? : StepEnd → Option Step
  | settled s => some s
  | dropped _ => none

/-- The entry about the step that was given up. -/
def dropped? : StepEnd → Option LogEntry
  | settled _ => none
  | dropped entry => some entry

end StepEnd

/-- The step that the event declares. -/
def declaredStep? : Event → Option StepHeader
  | .step header => some header
  | _ => none

/-- The awaiting step after an event that is accepted and lets it wait. -/
def bound (p : PendingStep) : Event → PendingStep
  | .binding glue => { p with glue := some glue }
  | _ => p

/-- How an accepted event ends the wait of a step. -/
def stepEnd? (p : PendingStep) : Event → Option StepEnd
  | .result verdict => some (.settled (p.resolved verdict))
  | .step header =>
    some (.dropped ⟨.step header, .told (.stepOvertaken header.name p.step.name)⟩)
  | .endOfDocument => some (.dropped ⟨.endOfDocument, .told (.stepCleared p.step.name)⟩)
  | e =>
    if e.isStructural then some (.dropped ⟨e, .told (.stepAbandoned p.step.name e.kind)⟩) else none

/-- How a refused event ends the wait of a step. -/
def stepRefusal? (p : PendingStep) (e : Event) : BuildError → Option StepEnd
  | .unresolvedStep _ _ => some (.dropped ⟨e, .refused (.unresolvedStep p.step.name e.kind)⟩)
  | _ => none

/-- The wait of steps for their results. -/
def stepWait [AttachmentStore σ] : Wait (Turn σ) PendingStep StepEnd where
  starts? t := (t.accepted?.bind declaredStep?).map fun header => { step := header }
  ends? t p :=
    match t.reaction.error with
    | none => stepEnd? p t.event
    | some error => stepRefusal? p t.event error
  carries t p := t.accepted?.elim p (bound p)

/-! ## Backgrounds -/

/-- How the wait of a background ends, with what it has gathered: the scenario of the header adopts
it, or it is given up with an entry in the log. -/
inductive BackgroundEnd where
  | adopted (header : Header) (gathered : Background × Held)
  | discarded (gathered : Background × Held) (entry : LogEntry)
  deriving DecidableEq, Repr

namespace BackgroundEnd

/-- What the background had gathered. -/
def gathered : BackgroundEnd → Background × Held
  | adopted _ gathered | discarded gathered _ => gathered

/-- The header of the scenario that adopted the background, and what it got. -/
def adopted? : BackgroundEnd → Option (Header × Background × Held)
  | adopted header gathered => some (header, gathered)
  | discarded _ _ => none

/-- The entry about the background that was given up. -/
def discarded? : BackgroundEnd → Option LogEntry
  | adopted _ _ => none
  | discarded _ entry => some entry

/-- The steps that were given up together with the background. -/
def lostSteps : BackgroundEnd → List Step
  | adopted _ _ => []
  | discarded gathered _ => gathered.1.steps

end BackgroundEnd

/-- What a background has gathered, whatever becomes of it. -/
def gatheredBy : Fate (Background × Held) BackgroundEnd → Background × Held
  | .waiting gathered => gathered
  | .ended f => f.gathered

/-- The background that the event declares. -/
def declaredBackground? : Event → Option BackgroundHeader
  | .background header => some header
  | _ => none

/-- What an open background has gathered once the item is added. -/
def gather (item : Item) (w : Background × Held) : Background × Held :=
  (item.onBackground w.1, item.onHeld w.2)

/-- How an accepted event ends the wait of a background. -/
def backgroundEnd? (w : Background × Held) : Event → Option BackgroundEnd
  | .scenario header => some (.adopted header w)
  | .documentStart uri =>
    some (.discarded w
      ⟨.documentStart uri, .told (.backgroundDiscarded w.1.name (some .documentStart))⟩)
  | .feature header =>
    some (.discarded w ⟨.feature header, .told (.backgroundDiscarded w.1.name (some .feature))⟩)
  | .endOfDocument =>
    some (.discarded w ⟨.endOfDocument, .told (.backgroundDiscarded w.1.name none)⟩)
  | _ => none

variable {b b' : Builder σ} {e : Event} {error : BuildError}

section Process

variable [AttachmentStore σ]

/-- What the builder makes of an accepted event that adds to the open background or scenario. -/
def item? (b : Builder σ) : Event → Option Item
  | .result verdict => b.pending.map fun p => .step (p.resolved verdict)
  | .before glue verdict => some (.before { location := glue.location, verdict })
  | .after glue verdict => some (.after { location := glue.location, verdict })
  | .embedding mimeType data =>
    (AttachmentStore.offer b.store mimeType data).1.toOption.map fun filename =>
      .attachment { mimeType, filename }
  | _ => none

/-- The wait of backgrounds for the scenarios that adopt them. -/
def backgroundWait : Wait (Turn σ) (Background × Held) BackgroundEnd where
  starts? t := (t.accepted?.bind declaredBackground?).map fun header =>
    ({ keyword := header.keyword, name := header.name, line := header.line }, {})
  ends? t w := t.accepted?.bind (backgroundEnd? w)
  carries t w := (t.accepted?.bind (item? t.builder)).elim w (gather · w)

/-! ## One turn -/

/-- The item that an accepted event yields is the one read off the event. -/
theorem Yields.item? {item : Item} (h : Yields b e item b') : Stream.item? b e = some item := by
  cases h with
  | result hpending => simp [Stream.item?, hpending]
  | before | after => rfl
  | embedding hoffer => simp [Stream.item?, hoffer, Except.toOption]

/-- What awaits its result behind an accepted event: a step that it declares, or the one before if
the event does not end its wait. -/
theorem stepWait_next_of_accepted (h : (b.process e).error = none) (p? : Option PendingStep) :
    stepWait.next ⟨b, e⟩ p? =
      ((declaredStep? e).map fun header => { step := header }).or
        (p?.bind fun p => if (stepEnd? p e).isSome then none else some (bound p e)) := by
  have herror : (⟨b, e⟩ : Turn σ).reaction.error = none := h
  simp only [Wait.next, stepWait, Turn.accepted?_of_accepted h, herror]
  rfl

/-- Behind a refused event the step of before awaits its result, unless it was given up. -/
theorem stepWait_next_of_refused (h : (b.process e).error = some error) (p? : Option PendingStep) :
    stepWait.next ⟨b, e⟩ p? =
      p?.bind fun p => if (stepRefusal? p e error).isSome then none else some p := by
  have herror : (⟨b, e⟩ : Turn σ).reaction.error = some error := h
  simp only [Wait.next, stepWait, Turn.accepted?_of_refused h, herror]
  rfl

/-- A builder keeps the awaiting step as the wait of steps describes it. -/
theorem follows_pending : Follows stepWait (@Builder.pending σ) where
  next {b} hb e := by
    cases herror : (b.process e).error with
    | none =>
        -- accepted: a declared step starts to wait, and structural events and results end a wait
        rw [stepWait_next_of_accepted herror]
        have haccepts := Builder.accepts_process herror
        generalize (b.process e).builder = b' at haccepts
        cases haccepts with
        | documentStart | feature | background | scenario | step | endOfDocument =>
            cases b.pending <;> simp [declaredStep?, stepEnd?, Event.isStructural]
        | binding hpending => simp [hpending, declaredStep?, stepEnd?, Event.isStructural, bound]
        | hold hyields | record hyields =>
            cases hyields <;> cases b.pending <;>
              simp [declaredStep?, stepEnd?, Event.isStructural, bound]
        | write | outline | examples =>
            cases b.pending <;> simp [declaredStep?, stepEnd?, Event.isStructural, bound]
    | some error =>
        -- refused: a step is given up only where it is what stands in the way
        rw [stepWait_next_of_refused herror]
        have hrefuses := Builder.refuses_process hb herror
        generalize (b.process e).builder = b' at hrefuses
        cases hrefuses with
        | unresolved _ hpending => simp [hpending, stepRefusal?]
        | misfit | outOfOrder | nested | duplicateStep | duplicateBinding | attachment
        | malformed => cases b.pending <;> simp [stepRefusal?]
  starts {b} hb e p hp := by
    cases herror : (b.process e).error with
    | none =>
        have herror' : (⟨b, e⟩ : Turn σ).reaction.error = none := herror
        simp only [stepWait, Turn.accepted?_of_accepted herror, herror']
        -- a step that is declared while another waits ends the other's wait
        cases e <;> simp [declaredStep?, stepEnd?]
    | some error => simp [stepWait, Turn.accepted?_of_refused herror]

/-- What waits to be adopted behind an accepted event: a background that it declares, or the one
before with the item of the event. -/
theorem backgroundWait_next_of_accepted (h : (b.process e).error = none)
    (w? : Option (Background × Held)) :
    backgroundWait.next ⟨b, e⟩ w? =
      ((declaredBackground? e).map fun header =>
        (({ keyword := header.keyword, name := header.name, line := header.line }, {}) :
          Background × Held)).or
        (w?.bind fun w =>
          if (backgroundEnd? w e).isSome then none
          else some ((item? b e).elim w (gather · w))) := by
  simp only [Wait.next, backgroundWait, Turn.accepted?_of_accepted h]
  rfl

/-- A refused event leaves the background that waits. -/
theorem backgroundWait_next_of_refused (h : (b.process e).error = some error)
    (w? : Option (Background × Held)) : backgroundWait.next ⟨b, e⟩ w? = w? := by
  simp only [Wait.next, backgroundWait, Turn.accepted?_of_refused h]
  cases w? <;> rfl

/-- A background is accepted only where none is open. -/
theorem gathered?_of_background {header : BackgroundHeader}
    (h : (b.process (.background header)).error = none) : b.opened.gathered? = none := by
  have haccepts := Builder.accepts_process h
  generalize (b.process (.background header)).builder = b' at haccepts
  cases haccepts with
  | background hopen => rwa [Open.background?_eq, Option.map_eq_none_iff] at hopen
  | hold hyields | record hyields => cases hyields

/-- A builder keeps the open background as the wait of backgrounds describes it. -/
theorem follows_gathered : Follows backgroundWait fun b : Builder σ => b.opened.gathered? where
  next {b} hb e := by
    cases herror : (b.process e).error with
    | none =>
        rw [backgroundWait_next_of_accepted herror]
        have haccepts := Builder.accepts_process herror
        generalize (b.process e).builder = b' at haccepts
        cases haccepts with
        | documentStart | feature | scenario | endOfDocument =>
            cases b.opened.gathered? <;> simp [declaredBackground?, backgroundEnd?, Open.gathered?]
        | background => simp [declaredBackground?, Open.gathered?]
        -- of the events that yield items only the held ones find a background open
        | hold hyields hopen =>
            have hitem := Yields.item? hyields
            cases hyields <;>
              simp [hopen, hitem, declaredBackground?, backgroundEnd?, Open.gathered?, gather]
        | record hyields hopen =>
            have hnone : b.opened.gathered? = none := by rw [hopen]; rfl
            cases hyields <;> simp [hnone, declaredBackground?]
        | step | binding | write | outline | examples =>
            cases b.opened.gathered? <;> simp [declaredBackground?, backgroundEnd?, item?]
    | some error =>
        rw [backgroundWait_next_of_refused herror]
        have hrefuses := Builder.refuses_process hb herror
        generalize (b.process e).builder = b' at hrefuses
        cases hrefuses <;> rfl
  starts {b} hb e w hw := by
    cases herror : (b.process e).error with
    | none =>
        simp only [backgroundWait, Turn.accepted?_of_accepted herror]
        cases e with
        -- two backgrounds never wait at a time: the second one would be refused
        | background => simp [gathered?_of_background herror] at hw
        | _ => simp [declaredBackground?]
    | some error => simp [backgroundWait, Turn.accepted?_of_refused herror]

end Process

/-! ## Entries -/

/-- Of what an accepted event tells, one notice is about the step that it gives up. -/
theorem drops_told (b : Builder σ) (e : Event) :
    ((b.told e).map fun n => (⟨e, .told n⟩ : LogEntry)).filter (·.record.step?.isSome) =
      (b.pending.bind (stepEnd? · e)).toList.filterMap StepEnd.dropped? := by
  cases e with
  | endOfDocument =>
      cases hpending : b.pending <;> cases hbackground : b.opened.background? <;>
        cases huri : b.opened.uri? <;>
        simp [Builder.told, hpending, hbackground, huri, Record.step?, stepEnd?, StepEnd.dropped?]
  | documentStart | feature | background =>
      cases hpending : b.pending <;> cases hbackground : b.opened.background? <;>
        simp [Builder.told, Builder.partings, hpending, hbackground, Record.step?, stepEnd?,
          StepEnd.dropped?, Event.isStructural, Event.kind]
  | _ =>
      cases hpending : b.pending <;>
        simp [Builder.told, hpending, Record.step?, stepEnd?, StepEnd.dropped?, Event.isStructural,
          Event.kind]

/-- Of what an event tells that does not open one background inside another, one notice is about the
background that it gives up. -/
theorem discards_told
    (hnested : ∀ header, e = .background header → b.opened.gathered? = none) :
    ((b.told e).map fun n => (⟨e, .told n⟩ : LogEntry)).filter (·.record.background?.isSome) =
      (b.opened.gathered?.bind (backgroundEnd? · e)).toList.filterMap
        BackgroundEnd.discarded? := by
  cases e with
  | background header =>
      cases hpending : b.pending <;>
        simp [Builder.told, Builder.partings, Open.background?_eq, hnested header rfl, hpending,
          Record.background?]
  | _ =>
      cases hopen : b.opened.gathered? <;> cases hpending : b.pending <;>
        cases huri : b.opened.uri? <;>
        simp [Builder.told, Builder.partings, Open.background?_eq, hopen, hpending, huri,
          Record.background?, backgroundEnd?, BackgroundEnd.discarded?]

section Process

variable [AttachmentStore σ]

/-- How an accepted event ends the wait of a step. -/
theorem stepWait_ending_of_accepted (h : (b.process e).error = none) (p? : Option PendingStep) :
    stepWait.ending? ⟨b, e⟩ p? = p?.bind (stepEnd? · e) := by
  have herror : (⟨b, e⟩ : Turn σ).reaction.error = none := h
  simp only [Wait.ending?, stepWait, herror]

/-- How a refused event ends the wait of a step. -/
theorem stepWait_ending_of_refused (h : (b.process e).error = some error)
    (p? : Option PendingStep) :
    stepWait.ending? ⟨b, e⟩ p? = p?.bind (stepRefusal? · e error) := by
  have herror : (⟨b, e⟩ : Turn σ).reaction.error = some error := h
  simp only [Wait.ending?, stepWait, herror]

/-- How an accepted event ends the wait of a background. -/
theorem backgroundWait_ending_of_accepted (h : (b.process e).error = none)
    (w? : Option (Background × Held)) :
    backgroundWait.ending? ⟨b, e⟩ w? = w?.bind (backgroundEnd? · e) := by
  simp only [Wait.ending?, backgroundWait, Turn.accepted?_of_accepted h]
  rfl

/-- A refused event ends the wait of no background. -/
theorem backgroundWait_ending_of_refused (h : (b.process e).error = some error)
    (w? : Option (Background × Held)) : backgroundWait.ending? ⟨b, e⟩ w? = none := by
  simp only [Wait.ending?, backgroundWait, Turn.accepted?_of_refused h]
  cases w? <;> rfl

/-- The turn leaves one entry for a step that it gives up, and no other about steps. -/
theorem drops_eq (hb : b.Anchored) (e : Event) :
    (⟨b, e⟩ : Turn σ).drops =
      (stepWait.ending? ⟨b, e⟩ b.pending).toList.filterMap StepEnd.dropped? := by
  cases herror : (b.process e).error with
  | none =>
      rw [stepWait_ending_of_accepted herror, ← drops_told, Turn.drops,
        Turn.entries_of_accepted herror]
      rfl
  | some error =>
      rw [stepWait_ending_of_refused herror, Turn.drops, Turn.entries_of_refused hb herror]
      have hrefuses := Builder.refuses_process hb herror
      generalize (b.process e).builder = b' at hrefuses
      cases hrefuses with
      | unresolved _ hpending => simp [hpending, Record.step?, stepRefusal?, StepEnd.dropped?]
      | misfit | outOfOrder | nested | duplicateStep | duplicateBinding | attachment | malformed =>
          cases b.pending <;> simp [Record.step?, stepRefusal?]

/-- The turn leaves one entry for a background that it gives up, and no other about backgrounds. -/
theorem discards_eq (hb : b.Anchored) (e : Event) :
    (⟨b, e⟩ : Turn σ).discards =
      (backgroundWait.ending? ⟨b, e⟩ b.opened.gathered?).toList.filterMap
        BackgroundEnd.discarded? := by
  cases herror : (b.process e).error with
  | none =>
      -- a nested background would discard nothing and is refused
      have hnested : ∀ header, e = .background header → b.opened.gathered? = none := by
        rintro header rfl
        exact gathered?_of_background herror
      rw [backgroundWait_ending_of_accepted herror, ← discards_told hnested, Turn.discards,
        Turn.entries_of_accepted herror]
      rfl
  | some error =>
      rw [backgroundWait_ending_of_refused herror, Turn.discards,
        Turn.entries_of_refused hb herror]
      rfl

end Process

/-! ## What the fates say -/

/-- The entry is one that a step of the name leaves when it is given up: a warning about what
overtakes it in lenient ordering, a remark at the end of the document, or an error in strict
ordering. -/
inductive Drops (strict : Bool) (step : String) : LogEntry → Prop
  | warned {e : Event} {n : Notice} (hover : overtakes e = true) (hlenient : strict = false)
      (hlevel : n.level = .warn) (hnames : (Record.told n).step? = some step) :
      Drops strict step ⟨e, .told n⟩
  | remarked {n : Notice} (hlevel : n.level = .debug)
      (hnames : (Record.told n).step? = some step) : Drops strict step ⟨.endOfDocument, .told n⟩
  | refused {e : Event} (hstrict : strict = true) :
      Drops strict step ⟨e, .refused (.unresolvedStep step e.kind)⟩

/-- The entry is the warning that a background of the name leaves when it is given up. -/
inductive Discards (name : String) : LogEntry → Prop
  | warned {e : Event} {n : Notice} (hlevel : n.level = .warn)
      (hnames : (Record.told n).background? = some name) : Discards name ⟨e, .told n⟩

/-- What becomes of the step that the header declares. -/
inductive StepFate (strict : Bool) (header : StepHeader) : Fate PendingStep StepEnd → Prop
  | waiting {p : PendingStep} (h : p.step = header) : StepFate strict header (.waiting p)
  | settled {glue : Option Glue} {verdict : Verdict} :
      StepFate strict header
        (.ended (.settled
          { keyword := header.keyword
            name := header.name
            line := header.line
            location := glue.bind Glue.location
            verdict }))
  | dropped {entry : LogEntry} (h : Drops strict header.name entry) :
      StepFate strict header (.ended (.dropped entry))

/-- The background is a run of the one that the header declares. -/
def IsRun (header : BackgroundHeader) (background : Background) : Prop :=
  background.keyword = header.keyword ∧ background.name = header.name ∧
    background.line = header.line

/-- What becomes of the background that the header declares. -/
inductive BackgroundFate (header : BackgroundHeader) :
    Fate (Background × Held) BackgroundEnd → Prop
  | waiting {w : Background × Held} (h : IsRun header w.1) : BackgroundFate header (.waiting w)
  | adopted {owner : Header} {w : Background × Held} (h : IsRun header w.1) :
      BackgroundFate header (.ended (.adopted owner w))
  | discarded {w : Background × Held} {entry : LogEntry} (h : IsRun header w.1)
      (hentry : Discards header.name entry) : BackgroundFate header (.ended (.discarded w entry))

/-- The entry names the step that is given up. -/
theorem Drops.step? {strict : Bool} {step : String} {entry : LogEntry}
    (h : Drops strict step entry) :
    entry.record.step? = some step := by
  cases h with
  | warned _ _ _ hnames | remarked _ hnames => exact hnames
  | refused => rfl

/-- An accepted event that overtakes a step found none in the way in strict ordering. -/
theorem Accepts.ready [AttachmentStore σ] (h : Accepts b e b') (hover : overtakes e = true) :
    b.Ready := by
  cases h with
  | documentStart _ hready | feature hready | background _ _ hready | scenario _ _ hready
  | step _ hready => exact hready
  | hold hyields | record hyields => cases hyields <;> cases hover
  | binding | write | outline | examples | endOfDocument => cases hover

section Process

variable [AttachmentStore σ]

/-- A step's wait ends with its result or with an entry that fits the ordering: lenient where an
event that overtakes it is accepted, strict where one is refused. -/
theorem stepWait_ends {t : Turn σ} {p : PendingStep} {f : StepEnd}
    (h : stepWait.ends? t p = some f) :
    (∃ verdict, f = .settled (p.resolved verdict)) ∨
      ∃ entry, f = .dropped entry ∧
        ∀ strict, (t.reaction.error = none → overtakes t.event = true → strict = false) →
          (t.reaction.error ≠ none → strict = true) → Drops strict p.step.name entry := by
  obtain ⟨b, e⟩ := t
  simp only [stepWait] at h
  cases herror : (⟨b, e⟩ : Turn σ).reaction.error with
  | none =>
      rw [herror] at h
      cases e with
      | result verdict => exact Or.inl ⟨verdict, (Option.some.inj h).symm⟩
      | documentStart | feature | background | scenario | step =>
          obtain rfl := Option.some.inj h
          exact Or.inr ⟨_, rfl, fun _ hlenient _ => .warned rfl (hlenient rfl rfl) rfl rfl⟩
      | endOfDocument =>
          obtain rfl := Option.some.inj h
          exact Or.inr ⟨_, rfl, fun _ _ _ => .remarked rfl rfl⟩
      | binding | before | after | embedding | write | outline | examples | syntaxError => cases h
  | some error =>
      rw [herror] at h
      cases error with
      | unresolvedStep =>
          obtain rfl := Option.some.inj h
          exact Or.inr ⟨_, rfl, fun _ _ hstrict => .refused (hstrict (by simp))⟩
      | _ => cases h

/-- The entry about a step that a builder gives up. -/
theorem drops_of_ends (hb : b.Anchored) {p : PendingStep} {entry : LogEntry}
    (hp : b.pending = some p) (h : stepWait.ends? ⟨b, e⟩ p = some (.dropped entry)) :
    Drops b.settings.strict p.step.name entry := by
  rcases stepWait_ends h with ⟨_, hf⟩ | ⟨_, hf, hdrops⟩
  · cases hf
  obtain rfl := StepEnd.dropped.inj hf
  refine hdrops _ (fun herror hover => ?_) fun herror => ?_
  -- in strict ordering an accepted event finds no step in its way
  · by_contra hstrict
    have hnone := Accepts.ready (Builder.accepts_process herror) hover (by simpa using hstrict)
    simp [hp] at hnone
  · obtain ⟨error, herror⟩ := Option.ne_none_iff_exists'.mp herror
    simp only [stepWait, herror] at h
    have hrefuses := Builder.refuses_process hb herror
    generalize (b.process e).builder = b' at hrefuses
    cases hrefuses with
    | unresolved _ _ hstrict => exact hstrict
    | misfit | outOfOrder | nested | duplicateStep | duplicateBinding | attachment
    | malformed => cases h

/-! ## The fates of a run -/

/-- A turn keeps the settings. -/
theorem settings_process (hb : b.Anchored) (e : Event) :
    (b.process e).builder.settings = b.settings := by
  cases herror : (b.process e).error with
  | none => exact settings_of_accepts (Builder.accepts_process herror)
  | some error =>
      have hrefuses := Builder.refuses_process hb herror
      generalize (b.process e).builder = b' at hrefuses
      cases hrefuses <;> rfl

/-- In every turn of a run the builder is anchored and has the settings of the start. -/
theorem anchored_of_mem_turns (hb : b.Anchored) {events : List Event} {t : Turn σ}
    (ht : t ∈ b.turns events) : t.builder.Anchored ∧ t.builder.settings = b.settings := by
  induction events generalizing b with
  | nil => cases ht
  | cons e events ih =>
      rcases List.mem_cons.mp ht with rfl | ht
      · exact ⟨hb, rfl⟩
      · obtain ⟨hanchored, hsettings⟩ := ih (Builder.anchored_process hb e) ht
        exact ⟨hanchored, hsettings.trans (settings_process hb e)⟩

/-- The entries of a run about steps that are given up are those of the fates. -/
theorem drops_turns (hb : b.Anchored) (events : List Event) :
    (b.turns events).flatMap Turn.drops =
      (stepWait.endings b.pending (b.turns events)).filterMap StepEnd.dropped? :=
  follows_pending.ended drops_eq hb events

/-- The entries of a run about backgrounds that are given up are those of the fates. -/
theorem discards_turns (hb : b.Anchored) (events : List Event) :
    (b.turns events).flatMap Turn.discards =
      (backgroundWait.endings b.opened.gathered? (b.turns events)).filterMap
        BackgroundEnd.discarded? :=
  follows_gathered.ended discards_eq hb events

/-- Whatever a run says of steps that are given up, the ordering explains. -/
theorem drops_of_mem (hb : b.Anchored) (events : List Event) {entry : LogEntry}
    (h : entry ∈ (b.turns events).flatMap Turn.drops) :
    ∃ step, Drops b.settings.strict step entry := by
  obtain ⟨⟨b₁, e⟩, ht, hentry⟩ := List.mem_flatMap.mp h
  obtain ⟨hanchored, hsettings⟩ := anchored_of_mem_turns hb ht
  rw [drops_eq hanchored] at hentry
  simp only [Wait.ending?, List.mem_filterMap, Option.mem_toList, Option.bind_eq_some_iff]
    at hentry
  obtain ⟨f, ⟨p, hp, hends⟩, hdropped⟩ := hentry
  cases f with
  | settled => cases hdropped
  | dropped entry' =>
      obtain rfl : entry' = entry := Option.some.inj hdropped
      exact ⟨_, hsettings ▸ drops_of_ends hanchored hp hends⟩

/-- What becomes of a step that waits, if all that is said of steps that are given up fits the
ordering. -/
theorem stepFate_fate {strict : Bool} {header : StepHeader} {p : PendingStep}
    (hp : p.step = header) (ts : List (Turn σ))
    (h : ∀ entry, stepWait.fate p ts = .ended (.dropped entry) → ∃ step, Drops strict step entry) :
    StepFate strict header (stepWait.fate p ts) := by
  refine Wait.fate_of_carries (P := fun p => p.step = header)
    (Q := fun f => (∀ entry, f = .ended (.dropped entry) → ∃ step, Drops strict step entry) →
      StepFate strict header f)
    (fun p hp _ => .waiting hp) (fun t p f hp hends h => ?_) (fun t p hp => ?_) hp ts h
  · rcases stepWait_ends hends with ⟨verdict, rfl⟩ | ⟨entry, rfl, hdrops⟩
    · exact hp ▸ .settled
    · -- the entry fits some ordering, so it names the step, and `h` has it fit this one
      obtain ⟨step, hstep⟩ := h entry rfl
      have hnames := hdrops t.reaction.error.isSome (fun herror _ => by simp [herror])
        fun herror => by simpa [Option.isSome_iff_ne_none] using herror
      obtain rfl : p.step.name = step := Option.some.inj (hnames.step?.symm.trans hstep.step?)
      exact .dropped (hp ▸ hstep)
  · cases ht : t.accepted? with
    | none => simpa [stepWait, ht] using hp
    | some e => cases e <;> simpa [stepWait, ht, bound] using hp

/-- Each step that a run declares has its fate. -/
theorem stepFates (hb : b.Anchored) (hpending : b.pending = none) (events : List Event) :
    List.Forall₂ (StepFate b.settings.strict)
      ((b.turns events).filterMap fun t => t.accepted?.bind declaredStep?)
      (stepWait.fates (b.turns events)) := by
  have hfates := stepWait.forall₂_fates
    (R := fun p f =>
      (∀ entry, f = .ended (.dropped entry) → ∃ step, Drops b.settings.strict step entry) →
        StepFate b.settings.strict p.step f)
    (fun p ts h => stepFate_fate rfl ts h) (b.turns events)
  -- an ended wait has left its entry in the log, and every entry fits the ordering
  have hentries : ∀ f ∈ stepWait.fates (b.turns events), ∀ entry,
      f = .ended (.dropped entry) → ∃ step, Drops b.settings.strict step entry := by
    rintro f hf entry rfl
    refine drops_of_mem hb events ?_
    rw [drops_turns hb, hpending, Wait.endings, Wait.accounted_none]
    exact List.mem_filterMap.mpr ⟨_, List.mem_filterMap.mpr ⟨_, hf, rfl⟩, rfl⟩
  simp only [stepWait, ← List.map_filterMap, List.forall₂_map_left_iff] at hfates
  exact ((List.forall₂_and_left _ _).mpr ⟨hentries, hfates.flip⟩).flip.imp fun _ _ h => h.2 h.1

/-- What becomes of a background that waits, however much it gathers. -/
theorem backgroundFate_fate {header : BackgroundHeader} {w : Background × Held}
    (hw : IsRun header w.1) (ts : List (Turn σ)) :
    BackgroundFate header (backgroundWait.fate w ts) := by
  refine Wait.fate_of_carries (P := fun w => IsRun header w.1) (fun w hw => .waiting hw)
    (fun t w f hw hends => ?_) (fun t w hw => ?_) hw ts
  · have hname : w.1.name = header.name := hw.2.1
    obtain ⟨e, -, hends⟩ := Option.bind_eq_some_iff.mp hends
    cases e with
    | scenario =>
        obtain rfl := Option.some.inj hends
        exact .adopted hw
    | documentStart | feature | endOfDocument =>
        obtain rfl := Option.some.inj hends
        exact .discarded hw (.warned rfl (congrArg some hname))
    | background | step | binding | result | before | after | embedding | write | outline
    | examples | syntaxError => cases hends
  · cases hitem : t.accepted?.bind (item? t.builder) with
    | none => simpa [backgroundWait, hitem] using hw
    | some item =>
        simp only [backgroundWait, hitem]
        cases item <;> exact hw

/-- Each background that a run opens has its fate. -/
theorem backgroundFates (ts : List (Turn σ)) :
    List.Forall₂ BackgroundFate (ts.filterMap fun t => t.accepted?.bind declaredBackground?)
      (backgroundWait.fates ts) := by
  have hfates := backgroundWait.forall₂_fates
    (R := fun w f => ∀ header, IsRun header w.1 → BackgroundFate header f)
    (fun w ts header hw => backgroundFate_fate hw ts) ts
  simp only [backgroundWait, ← List.map_filterMap, List.forall₂_map_left_iff] at hfates
  exact hfates.imp fun header f h => h header ⟨rfl, rfl, rfl⟩

end Process

end Stream

end ScenarioResults
