import ScenarioResults.Proofs.Builder.Step

/-!
# Strict and lenient ordering

Lenient ordering accepts a step or a structural event while another step awaits its result, and a
second binding of a step. What was there before is given up. Strict ordering refuses such events.
The two differ in nothing else: a stream that strict ordering accepts is treated alike in both, and
so is a stream that lenient ordering accepts, once the events that are given up are left out
(`processAll_strict_lenient`).

## Shape of the proof

Whether an event is given up is seen from the events after it (`isAbandoned`). So the two builders
are compared with the rest of the stream in view: `thinned b later` is the strict builder that
corresponds to `b`, where the awaiting step keeps only what the later events leave of it
(`remaining`). One accepted event carries the correspondence to the shorter rest.
-/

namespace ScenarioResults

/-- The builders are in the same state, whatever their settings. -/
structure Builder.Agrees {σ : Type} (b b' : Builder σ) : Prop where
  tree : b'.tree = b.tree
  opened : b'.opened = b.opened
  pending : b'.pending = b.pending
  store : b'.store = b.store

namespace Stream

open Builder (Accepts Yields)

/-! ## Events that are given up -/

/-- Whether the event takes the place of a step that awaits its result. The end of a document does
not: it is no disorder. -/
def overtakes : Event → Bool
  | .step _ | .documentStart _ | .feature _ | .background _ | .scenario _ => true
  | _ => false

/-- Whether a step that was declared before the event no longer awaits its result after it. -/
def endsWait (e : Event) : Bool :=
  match e with
  | .result _ | .endOfDocument => true
  | e => overtakes e

/-- Whether the event binds a step. -/
def isBinding : Event → Bool
  | .binding _ => true
  | _ => false

/-- Of a step that awaits its result, the later events hold one that overtakes it before they
resolve it. -/
def overtaken (later : List Event) : Bool := (later.find? endsWait).any overtakes

/-- Of a step that awaits its result, the later events bind it once more. -/
def rebound (later : List Event) : Bool :=
  (later.find? fun e => isBinding e || endsWait e).any isBinding

/-- Whether the event is given up as the later ones show: a step and its bindings when the step is
overtaken, and a binding also when the same step is bound once more. -/
def isAbandoned : Event → List Event → Bool
  | .step _, later => overtaken later
  | .binding _, later => overtaken later || rebound later
  | _, _ => false

/-- The events without those that are given up. -/
def kept : List Event → List Event
  | [] => []
  | e :: later => if isAbandoned e later then kept later else e :: kept later

variable {e : Event} {later : List Event}

/-- An awaiting step is overtaken by an event that overtakes. -/
theorem overtaken_cons_of_overtakes (h : overtakes e = true) : overtaken (e :: later) = true := by
  have hends : endsWait e = true := by cases e <;> first | rfl | cases h
  simp [overtaken, hends, h]

/-- Past an event that does not end the wait, the later ones decide on overtaking. -/
theorem overtaken_cons_of_passing (h : endsWait e = false) :
    overtaken (e :: later) = overtaken later := by
  simp [overtaken, h]

/-- Past an event that neither ends the wait nor binds, the later ones decide on binding. -/
theorem rebound_cons_of_passing (h : endsWait e = false) (hbinding : isBinding e = false) :
    rebound (e :: later) = rebound later := by
  simp [rebound, h, hbinding]

/-! ## Corresponding builders -/

/-- What the later events leave of an awaiting step: nothing when they overtake it, and the step
without its binding when they bind it once more. -/
def remaining (later : List Event) (p : PendingStep) : Option PendingStep :=
  if overtaken later then none
  else some { p with glue := if rebound later then none else p.glue }

variable {σ : Type} {b b' : Builder σ}

/-- The same builder in the other ordering. -/
def ordered (strict : Bool) (b : Builder σ) : Builder σ :=
  { b with settings := { b.settings with strict } }

/-- The builder in strict ordering that has not seen the events given up before the later ones. -/
def thinned (b : Builder σ) (later : List Event) : Builder σ :=
  { ordered true b with pending := b.pending.bind (remaining later) }

/-- So they leave the same of an awaiting step. -/
theorem remaining_cons_of_passing (h : endsWait e = false) (hbinding : isBinding e = false) :
    remaining (e :: later) = remaining later := by
  funext p
  rw [remaining, overtaken_cons_of_passing h, rebound_cons_of_passing h hbinding, remaining]

/-- A step that is resolved next is kept as it is. -/
theorem remaining_result (v : Verdict) (p : PendingStep) :
    remaining (.result v :: later) p = some p := by
  have hovertaken : overtaken (.result v :: later) = false := rfl
  have hrebound : rebound (.result v :: later) = false := rfl
  simp [remaining, hovertaken, hrebound]

/-- Of a step that is overtaken nothing remains. -/
theorem remaining_of_overtaken (h : overtaken later = true) (p : PendingStep) :
    remaining later p = none := by
  simp [remaining, h]

/-- The corresponding builder from what is left of the awaiting step. -/
theorem thinned_eq {p? : Option PendingStep} (h : b.pending.bind (remaining later) = p?) :
    thinned b later = { ordered true b with pending := p? } := by
  rw [thinned, h]

/-- The corresponding builder while a step awaits its result. -/
theorem thinned_of_waiting {p : PendingStep} {p? : Option PendingStep}
    (h : remaining later p = p?) :
    thinned { b with pending := some p } later = { ordered true b with pending := p? } :=
  thinned_eq h

/-- No step is in the way of an event that would overtake it. -/
theorem thinned_of_overtakes (h : overtakes e = true) :
    thinned b (e :: later) = { ordered true b with pending := none } := by
  have hnone : remaining (e :: later) = fun _ => none :=
    funext (remaining_of_overtaken (overtaken_cons_of_overtakes h))
  exact thinned_eq (by rw [hnone, Option.bind_fun_none])

/-- An event that neither ends the wait nor binds leaves the corresponding builder. -/
theorem thinned_cons_of_passing (h : endsWait e = false) (hbinding : isBinding e = false) :
    thinned b (e :: later) = thinned b later := by
  rw [thinned, remaining_cons_of_passing h hbinding, thinned]

theorem thinned_nil (b : Builder σ) : thinned b [] = ordered true b := by
  have hall : remaining [] = some := rfl
  exact thinned_eq (by rw [hall, Option.bind_fun_some])

section Process

variable [AttachmentStore σ] {item : Item}

/-- An accepted event is accepted in lenient ordering too. -/
theorem accepts_lenient (h : Accepts b e b') : Accepts (ordered false b) e (ordered false b') := by
  -- readiness and unbound steps are asked for in strict ordering only
  have hready : (ordered false b).Ready := fun hstrict => by simp [ordered] at hstrict
  have hyields : ∀ {item b₁}, Yields b e item b₁ →
      Yields (ordered false b) e item (ordered false b₁) := fun hyields => by
    cases hyields with
    | result hpending => exact .result hpending
    | before => exact .before
    | after => exact .after
    | embedding hoffer => exact .embedding hoffer
  cases h with
  | documentStart hopen => exact .documentStart hopen hready
  | feature => exact .feature hready
  | background hopen hfeature => exact .background hopen hfeature hready
  | scenario hfeature howner => exact .scenario hfeature howner hready
  | step hopen => exact .step hopen hready
  | binding hpending => exact .binding hpending fun hstrict => by simp [ordered] at hstrict
  | hold h hopen => exact .hold (hyields h) hopen
  | record h hopen hscenario => exact .record (hyields h) hopen hscenario
  | write => exact .write
  | outline => exact .outline
  | examples => exact .examples
  | endOfDocument => exact .endOfDocument

/-- An event brings the same item to the corresponding builder. -/
theorem yields_thinned (h : Yields b e item b') (later : List Event) :
    Yields (thinned b (e :: later)) e item (thinned b' later) := by
  cases h with
  | result hpending => exact .result (by simp [thinned, hpending, remaining_result])
  | before =>
      rw [thinned_cons_of_passing rfl rfl]
      exact .before
  | after =>
      rw [thinned_cons_of_passing rfl rfl]
      exact .after
  | embedding hoffer =>
      rw [thinned_cons_of_passing rfl rfl]
      exact .embedding hoffer

/-- An event that yields an item is kept. -/
theorem isAbandoned_of_yields (h : Yields b e item b') : isAbandoned e later = false := by
  cases h <;> rfl

/-- The corresponding builder of one that has accepted the event: it has not seen the event if that
is given up, and has accepted it as well otherwise. -/
def Keeps (b : Builder σ) (e : Event) (later : List Event) (b' : Builder σ) : Prop :=
  if isAbandoned e later then thinned b (e :: later) = thinned b' later
  else Accepts (thinned b (e :: later)) e (thinned b' later)

/-- A declared step is given up exactly when it is overtaken. -/
theorem keeps_step {header : StepHeader} (hopen : b.takesSteps = true) :
    Keeps b (.step header) later { b with pending := some { step := header } } := by
  rw [Keeps, isAbandoned, thinned_of_overtakes rfl]
  by_cases hovertaken : overtaken later = true
  · rw [if_pos hovertaken, thinned_of_waiting (remaining_of_overtaken hovertaken _)]
  · have hremaining : remaining later { step := header } = some { step := header } := by
      simp [remaining, hovertaken]
    rw [if_neg hovertaken, thinned_of_waiting hremaining]
    exact .step hopen fun _ => rfl

/-- A binding is given up when its step is overtaken or bound once more. -/
theorem keeps_binding {glue : Glue} {p : PendingStep} (hpending : b.pending = some p) :
    Keeps b (.binding glue) later { b with pending := some { p with glue := some glue } } := by
  -- the binding itself makes the step rebound, so before it the step stands unbound
  have hwas : b.pending.bind (remaining (.binding glue :: later)) =
      if overtaken later then none else some { p with glue := none } := by
    have hrebound : rebound (.binding glue :: later) = true := rfl
    rw [hpending, Option.bind_some, remaining, overtaken_cons_of_passing rfl, hrebound, if_pos rfl]
  rw [Keeps, isAbandoned, thinned_eq hwas]
  by_cases hovertaken : overtaken later = true
  · rw [hovertaken, Bool.true_or, if_pos rfl, if_pos rfl,
      thinned_of_waiting (remaining_of_overtaken hovertaken _)]
  · rw [if_neg hovertaken]
    by_cases hrebound : rebound later = true
    · have hremaining : remaining later { p with glue := some glue } =
          some { p with glue := none } := by
        simp [remaining, hovertaken, hrebound]
      rw [hrebound, Bool.or_true, if_pos rfl, thinned_of_waiting hremaining]
    · have hremaining : remaining later { p with glue := some glue } =
          some { p with glue := some glue } := by
        simp [remaining, hovertaken, hrebound]
      rw [if_neg (by simp [hovertaken, hrebound]), thinned_of_waiting hremaining]
      exact .binding (p := { p with glue := none }) rfl fun _ => rfl

/-- An accepted event carries the correspondence on. -/
theorem keeps_of_accepts (h : Accepts b e b') (later : List Event) : Keeps b e later b' := by
  cases h with
  | documentStart hopen =>
      rw [Keeps, thinned_of_overtakes rfl]
      exact .documentStart hopen fun _ => rfl
  | feature =>
      rw [Keeps, thinned_of_overtakes rfl]
      exact .feature fun _ => rfl
  | background hopen hfeature =>
      rw [Keeps, thinned_of_overtakes rfl]
      exact .background hopen hfeature fun _ => rfl
  | scenario hfeature howner =>
      rw [Keeps, thinned_of_overtakes rfl]
      exact .scenario hfeature howner fun _ => rfl
  | step hopen => exact keeps_step hopen
  | binding hpending => exact keeps_binding hpending
  | hold hyields hopen =>
      have haccepts := Accepts.hold (yields_thinned hyields later) hopen
      rw [Keeps, isAbandoned_of_yields hyields]
      exact haccepts
  | record hyields hopen hscenario =>
      have haccepts := Accepts.record (yields_thinned hyields later) hopen hscenario
      rw [Keeps, isAbandoned_of_yields hyields]
      exact haccepts
  | write =>
      rw [Keeps, thinned_cons_of_passing rfl rfl]
      exact .write
  | outline =>
      rw [Keeps, thinned_cons_of_passing rfl rfl]
      exact .outline
  | examples =>
      rw [Keeps, thinned_cons_of_passing rfl rfl]
      exact .examples
  | endOfDocument => exact .endOfDocument

/-! ## Whole streams -/

/-- What a builder accepts, it accepts in lenient ordering too. -/
theorem processAll_lenient {events : List Event} (h : (b.processAll events).error = none) :
    ((ordered false b).processAll events).error = none ∧
      ((ordered false b).processAll events).builder =
        ordered false (b.processAll events).builder := by
  induction events generalizing b with
  | nil => exact ⟨rfl, rfl⟩
  | cons e events ih =>
      rw [Builder.processAll, Builder.error_andThen] at h
      obtain ⟨herror, hbuilder⟩ := (accepts_lenient (Builder.accepts_process h.1)).process
      rw [Builder.processAll, Builder.processAll, Builder.error_andThen,
        Builder.builder_andThen h.1, Builder.builder_andThen herror, hbuilder]
      exact ⟨⟨herror, (ih h.2).1⟩, (ih h.2).2⟩

/-- The corresponding builder accepts the events that are kept, and corresponds at the end. -/
theorem processAll_kept {events : List Event} (h : (b.processAll events).error = none) :
    ((thinned b events).processAll (kept events)).error = none ∧
      ((thinned b events).processAll (kept events)).builder =
        thinned (b.processAll events).builder [] := by
  induction events generalizing b with
  | nil => exact ⟨rfl, rfl⟩
  | cons e later ih =>
      rw [Builder.processAll, Builder.error_andThen] at h
      have hkeeps := keeps_of_accepts (Builder.accepts_process h.1) later
      rw [Builder.processAll, Builder.builder_andThen h.1, kept]
      -- a given-up event is not fed, and the corresponding builder has not moved
      unfold Keeps at hkeeps
      split at hkeeps
      · next habandoned =>
          rw [if_pos habandoned, hkeeps]
          exact ih h.2
      · next hkept =>
          obtain ⟨herror, hbuilder⟩ := hkeeps.process
          rw [if_neg hkept, Builder.processAll, Builder.error_andThen,
            Builder.builder_andThen herror, hbuilder]
          exact ⟨⟨herror, (ih h.2).1⟩, (ih h.2).2⟩

/-- What strict ordering accepts, lenient ordering treats alike. What lenient ordering accepts,
strict ordering treats alike once the events that are given up are left out. -/
theorem processAll_strict_lenient (store : σ) (events : List Event) :
    let strict := (Builder.new { strict := true } store).processAll
    let lenient := (Builder.new { strict := false } store).processAll
    ((strict events).error = none →
        (lenient events).error = none ∧ (strict events).builder.Agrees (lenient events).builder) ∧
      ((lenient events).error = none →
        (strict (kept events)).error = none ∧
          (lenient events).builder.Agrees (strict (kept events)).builder) := by
  intro strict lenient
  constructor
  · intro h
    obtain ⟨herror, hbuilder⟩ := processAll_lenient h
    refine ⟨herror, ?_⟩
    have hsame : (lenient events).builder = ordered false (strict events).builder := hbuilder
    rw [hsame]
    exact ⟨rfl, rfl, rfl, rfl⟩
  · intro h
    obtain ⟨herror, hbuilder⟩ := processAll_kept h
    rw [thinned_nil] at hbuilder
    refine ⟨herror, ?_⟩
    have hsame : (strict (kept events)).builder = ordered true (lenient events).builder := hbuilder
    rw [hsame]
    exact ⟨rfl, rfl, rfl, rfl⟩

/-- Step `a` is overtaken after a hook and takes its bindings along, step `b` is bound twice, step
`c` is overtaken by a scenario, and step `d` still waits when the document ends. -/
theorem processAll_strict_lenient_overtaken :
    let events : List Event :=
      [.feature {}, .background {}, .step { name := "a" }, .binding { location := some "1" },
        .binding { location := some "2" }, .before {} { outcome := .passed }, .step { name := "b" },
        .binding { location := some "3" }, .write "", .binding { location := some "4" },
        .result { outcome := .passed }, .step { name := "c" }, .scenario {}, .step { name := "d" },
        .endOfDocument, .feature {}]
    let orderly : List Event :=
      [.feature {}, .background {}, .before {} { outcome := .passed }, .step { name := "b" },
        .write "", .binding { location := some "4" }, .result { outcome := .passed }, .scenario {},
        .step { name := "d" }, .endOfDocument, .feature {}]
    let strict := (Builder.new { strict := true } ({} : Shelf)).processAll
    let lenient := (Builder.new { strict := false } ({} : Shelf)).processAll
    (strict events).error = some (.duplicateBinding "2") ∧ (lenient events).error = none ∧
      kept events = orderly ∧ (strict orderly).error = none ∧
      (lenient events).builder.Agrees (strict orderly).builder ∧
      (strict orderly).builder.Agrees (lenient orderly).builder := by
  intro events orderly strict lenient
  have hlenient : (lenient events).error = none := by decide +kernel
  have hkept : kept events = orderly := by decide +kernel
  obtain ⟨hstrict, hagrees⟩ := (processAll_strict_lenient ({} : Shelf) events).2 hlenient
  rw [hkept] at hstrict hagrees
  obtain ⟨-, hback⟩ := (processAll_strict_lenient ({} : Shelf) orderly).1 hstrict
  exact ⟨by decide +kernel, hlenient, hkept, hstrict, hagrees, hback⟩

end Process

end Stream

end ScenarioResults
