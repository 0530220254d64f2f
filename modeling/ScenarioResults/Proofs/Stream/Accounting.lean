import ScenarioResults.Proofs.Stream.Cargo

/-!
# No step or background is lost silently

Whatever a fresh builder is fed, accepted or refused, each step that it accepted is in its tree or
its open background, still awaits its result, went with a background that was given up, or was given
up by itself with one entry in the log that names it. Each background that it accepted was adopted
by one scenario, is still open, or was given up with one warning: `accounted_turns`.

## Shape of the proof

What the fates of a run say (`stepFates`, `backgroundFates`) and which entries they leave
(`drops_turns`, `discards_turns`) is known from the waits alone, and that the tree and the
backgrounds keep the steps, hooks and attachments is known of every `Cargo`. What remains is that a
turn settles the step that it brings (`settled_process`), and that the scenarios with a background
are those that adopted one (`adopters_process`).
-/

namespace ScenarioResults

namespace Scenario

/-- The scenario has grown: it has the same header and background and begins with the same items. -/
structure Extends (s s' : Scenario) : Prop where
  header : s'.header = s.header
  background : s'.background = s.background
  before : s.before <+: s'.before
  after : s.after <+: s'.after
  attachments : s.attachments <+: s'.attachments

theorem Extends.refl (s : Scenario) : s.Extends s :=
  ⟨rfl, rfl, List.prefix_rfl, List.prefix_rfl, List.prefix_rfl⟩

/-- A scenario that takes up an item has grown. -/
theorem extends_onScenario (item : Item) (s : Scenario) : s.Extends (item.onScenario s) := by
  cases item with
  | step | before | after | attachment =>
      exact ⟨rfl, rfl, by simp [Item.onScenario], by simp [Item.onScenario],
        by simp [Item.onScenario]⟩

end Scenario

namespace Tree

/-- Every step that is recorded, in tree order. -/
def steps (t : Tree) : List Step := t.recorded.flatMap Scenario.allSteps

/-- The scenarios that adopted a background, in tree order. -/
def adopters (t : Tree) : List Scenario := t.recorded.filter (·.background.isSome)

end Tree

namespace Stream

open Builder (Accepts)

variable {σ : Type} {b b' : Builder σ} {e : Event}

/-- The steps that the open background has gathered. -/
def gatheredSteps (b : Builder σ) : List Step := b.opened.gathered?.elim [] fun w => w.1.steps

/-- The scenario has what the background had gathered for it. -/
structure Adopts (s : Scenario) (adopted : Header × Background × Held) : Prop where
  header : s.header = adopted.1
  background : s.background = some adopted.2.1
  before : adopted.2.2.before <+: s.before
  after : adopted.2.2.after <+: s.after
  attachments : adopted.2.2.attachments <+: s.attachments

/-- A scenario that has grown since still has what it adopted. -/
theorem Adopts.of_extends {s s' : Scenario} {adopted : Header × Background × Held}
    (h : Adopts s adopted) (hs : s.Extends s') : Adopts s' adopted where
  header := hs.header.trans h.header
  background := hs.background.trans h.background
  before := h.before.trans hs.before
  after := h.after.trans hs.after
  attachments := h.attachments.trans hs.attachments

section Process

variable [AttachmentStore σ]

/-! ## Steps -/

/-- A turn settles the step that it brings. -/
theorem settled_process (b : Builder σ) (e : Event) :
    (Turn.item? (⟨b, e⟩ : Turn σ)).toList.flatMap Cargo.steps.item =
      (stepWait.ending? ⟨b, e⟩ b.pending).toList.filterMap StepEnd.settled? := by
  cases herror : (b.process e).error with
  | none =>
      rw [stepWait_ending_of_accepted herror, Turn.item?, Turn.accepted?_of_accepted herror,
        Option.bind_some]
      -- only a result that finds a step awaiting it both settles and brings one
      cases hpending : b.pending <;> cases e <;>
        simp [stepEnd?, item?, hpending, StepEnd.settled?, Cargo.steps, Item.step?,
          Event.isStructural]
  | some error =>
      rw [stepWait_ending_of_refused herror, Turn.item?, Turn.accepted?_of_refused herror]
      cases b.pending <;> cases error <;> rfl

/-- A run conserves the steps that have got their results. -/
theorem steps_feed (hb : AtEnd b) (events : List Event) :
    ((b.feed events).tree.steps ++ gatheredSteps (b.feed events) ++
        (backgroundWait.endings b.opened.gathered? (b.turns events)).flatMap
          BackgroundEnd.lostSteps).Perm
      (b.tree.steps ++ gatheredSteps b ++
        (stepWait.endings b.pending (b.turns events)).filterMap StepEnd.settled?) := by
  have hcarried := carried_feed Cargo.steps hb events
  -- what the cargo of steps counts as come is what the wait counts as settled
  have hsettled : (b.turns events).flatMap
        (fun t => (Turn.item? t).toList.flatMap Cargo.steps.item) =
      (stepWait.endings b.pending (b.turns events)).filterMap StepEnd.settled? :=
    follows_pending.ended (fun _ e => settled_process _ e) hb.anchored events
  have hlost : BackgroundEnd.lostSteps = Cargo.steps.lost := by
    funext f
    cases f <;> rfl
  rw [List.filterMap_eq_flatMap_toList, List.flatMap_assoc, hsettled, ← hlost] at hcarried
  exact hcarried

/-! ## Scenarios with a background -/

omit [AttachmentStore σ] in
/-- So it is for all scenarios of a tree. -/
theorem forall₂_adopts_of_extends {ss ss' : List Scenario}
    {done : List (Header × Background × Held)} (hext : List.Forall₂ Scenario.Extends ss ss')
    (h : List.Forall₂ Adopts ss done) : List.Forall₂ Adopts ss' done := by
  induction hext generalizing done with
  | nil => exact h
  | cons hs _ ih =>
      cases h with
      | cons h hrest => exact .cons (h.of_extends hs) (ih hrest)

/-- An item that is recorded changes neither which scenarios have a background nor how they begin.
-/
theorem extends_adopters (t : Tree) (id : ScenarioId) (item : Item) :
    List.Forall₂ Scenario.Extends t.adopters (t.modifyScenario id item.onScenario).adopters :=
  List.rel_filter (fun _ _ hs => by simp [hs.background])
    (Tree.forall₂_recorded_modifyScenario Scenario.Extends.refl
      (Scenario.extends_onScenario item) t id)

/-- Only a scenario adopts a background. -/
theorem adopted_eq_nil (he : ∀ header, e ≠ .scenario header) (w? : Option (Background × Held)) :
    (w?.bind (backgroundEnd? · e)).toList.filterMap BackgroundEnd.adopted? = [] := by
  cases w? with
  | none => rfl
  | some w => cases e <;> first | rfl | exact absurd rfl (he _)

/-- The scenarios with a background are those that adopted one before and, where a scenario adopts
the open background, this one behind them. -/
theorem adopters_of_accepts (h : Accepts b e b') (hb : AtEnd b)
    {done : List (Header × Background × Held)} (hdone : List.Forall₂ Adopts b.tree.adopters done) :
    List.Forall₂ Adopts b'.tree.adopters (done ++
      (b.opened.gathered?.bind (backgroundEnd? · e)).toList.filterMap
        BackgroundEnd.adopted?) := by
  cases h with
  | documentStart | background | endOfDocument | step | binding | write | outline | examples =>
      rwa [adopted_eq_nil (by simp), List.append_nil]
  | feature =>
      rwa [adopted_eq_nil (by simp), List.append_nil, Tree.adopters, Tree.recorded_addFeature]
  | @scenario header i _ hfeature =>
      rw [Tree.adopters, Tree.recorded_addScenario (hb.last i hfeature), List.filter_append]
      refine List.rel_append hdone ?_
      cases hopen : b.opened with
      | inBackground =>
          exact .cons ⟨rfl, rfl, List.prefix_rfl, List.prefix_rfl, List.prefix_rfl⟩ .nil
      | idle | uriSeen | inFeature | inScenario => exact .nil
  | hold hyields hopen =>
      have hscenario : ∀ header, e ≠ .scenario header := by
        rintro header rfl
        cases hyields
      rwa [adopted_eq_nil hscenario, List.append_nil, hyields.same.2]
  | @record _ _ item id hyields hopen =>
      have hscenario : ∀ header, e ≠ .scenario header := by
        rintro header rfl
        cases hyields
      rw [adopted_eq_nil hscenario, List.append_nil]
      exact forall₂_adopts_of_extends (extends_adopters b.tree id item) hdone

/-- A turn adds to the scenarios with a background those that adopt one in it. -/
theorem adopters_process (hb : AtEnd b) (e : Event) {done : List (Header × Background × Held)}
    (hdone : List.Forall₂ Adopts b.tree.adopters done) :
    List.Forall₂ Adopts (b.process e).builder.tree.adopters (done ++
      (backgroundWait.ending? ⟨b, e⟩ b.opened.gathered?).toList.filterMap
        BackgroundEnd.adopted?) := by
  cases herror : (b.process e).error with
  | none =>
      rw [backgroundWait_ending_of_accepted herror]
      exact adopters_of_accepts (Builder.accepts_process herror) hb hdone
  | some error =>
      rw [backgroundWait_ending_of_refused herror]
      have hrefuses := Builder.refuses_process hb.anchored herror
      generalize (b.process e).builder = b' at hrefuses
      cases hrefuses <;> simpa using hdone

/-! ## Runs -/

/-- The scenarios with a background, in tree order, are those that adopted one. -/
theorem adopters_feed (hb : AtEnd b) {done : List (Header × Background × Held)}
    (hdone : List.Forall₂ Adopts b.tree.adopters done) (events : List Event) :
    List.Forall₂ Adopts (b.feed events).tree.adopters (done ++
      (backgroundWait.endings b.opened.gathered? (b.turns events)).filterMap
        BackgroundEnd.adopted?) := by
  -- the adopted backgrounds so far grow along the run, so `done` is general
  induction events generalizing b done with
  | nil => simpa [Builder.turns, Wait.endings_nil, Builder.feed] using hdone
  | cons e events ih =>
      rw [follows_gathered.endings_cons hb.anchored, List.filterMap_append, ← List.append_assoc]
      exact ih (atEnd_process hb e) (adopters_process hb e hdone)

/-! ## The account -/

/-- All that a run accepted is accounted for by what it leaves in the builder and the log. Each
accepted step and background has its fate. The steps with results are those in the tree, in the open
background and in the backgrounds that were given up; the one that awaits its result is the
builder's. The adopted backgrounds are those of the scenarios with a background, and the one that
awaits its scenario is the open one. Of every step and background that was given up there is one
entry in the log, which has no others about them. Hooks and attachments that were accepted while a
background was open are with the backgrounds. -/
structure Accounted (strict : Bool) (ts : List (Turn σ)) (b : Builder σ) : Prop where
  steps : List.Forall₂ (StepFate strict)
    (ts.filterMap fun t => t.accepted?.bind declaredStep?) (stepWait.fates ts)
  settled : (b.tree.steps ++ gatheredSteps b ++
      (backgroundWait.endings none ts).flatMap BackgroundEnd.lostSteps).Perm
    ((stepWait.endings none ts).filterMap StepEnd.settled?)
  awaiting : (stepWait.fates ts).filterMap Fate.waiting? = b.pending.toList
  dropped : ts.flatMap Turn.drops = (stepWait.endings none ts).filterMap StepEnd.dropped?
  backgrounds : List.Forall₂ BackgroundFate
    (ts.filterMap fun t => t.accepted?.bind declaredBackground?) (backgroundWait.fates ts)
  adopted : List.Forall₂ Adopts b.tree.adopters
    ((backgroundWait.endings none ts).filterMap BackgroundEnd.adopted?)
  opened : (backgroundWait.fates ts).filterMap Fate.waiting? = b.opened.gathered?.toList
  discarded : ts.flatMap Turn.discards =
    (backgroundWait.endings none ts).filterMap BackgroundEnd.discarded?
  before : (backgroundWait.fates ts).flatMap (fun f => (gatheredBy f).2.before) =
    (ts.filterMap Turn.heldItem?).filterMap Item.before?
  after : (backgroundWait.fates ts).flatMap (fun f => (gatheredBy f).2.after) =
    (ts.filterMap Turn.heldItem?).filterMap Item.after?
  attachments : (backgroundWait.fates ts).flatMap (fun f => (gatheredBy f).2.attachments) =
    (ts.filterMap Turn.heldItem?).filterMap Item.attachment?

/-- A builder that starts afresh loses nothing of what it accepts, whatever else it is fed. -/
theorem accounted_turns (settings : Settings) (store : σ) (events : List Event) :
    Accounted settings.strict ((Builder.new settings store).turns events)
      ((Builder.new settings store).feed events) where
  steps := stepFates (Builder.anchored_new settings store) rfl events
  settled := steps_feed (atEnd_new settings store) events
  awaiting := follows_pending.waiting (Builder.anchored_new settings store) events
  dropped := drops_turns (Builder.anchored_new settings store) events
  backgrounds := backgroundFates _
  adopted := adopters_feed (atEnd_new settings store) .nil events
  opened := follows_gathered.waiting (Builder.anchored_new settings store) events
  discarded := discards_turns (Builder.anchored_new settings store) events
  before := gathered_new settings store (c := Cargo.before) (fun _ => rfl) events
  after := gathered_new settings store (c := Cargo.after) (fun _ => rfl) events
  attachments := gathered_new settings store (c := Cargo.attachments) (fun _ => rfl) events

/-- A feature arrives while a background is open and its second step waits. The first step goes with
the background, and both the background and the waiting step leave a warning. -/
example :
    let feature : Event := .feature { name := "g" }
    let ts := (Builder.new { strict := false } ({} : Shelf)).turns
      [.feature { name := "f" }, .background { name := "b" }, .step { name := "s" },
        .result { outcome := .passed }, .step { name := "r" }, feature]
    let s : Step :=
      { keyword := "", name := "s", line := none, location := none,
        verdict := { outcome := .passed } }
    stepWait.fates ts =
        [.ended (.settled s), .ended (.dropped ⟨feature, .told (.stepAbandoned "r" .feature)⟩)] ∧
      backgroundWait.fates ts =
        [.ended (.discarded ({ keyword := "", name := "b", line := none, steps := [s] }, {})
          ⟨feature, .told (.backgroundDiscarded "b" (some .feature))⟩)] := by
  decide +kernel

end Process

end Stream

end ScenarioResults
