import ScenarioResults.Proofs.Builder.Anchored
import ScenarioResults.Proofs.Stream.Grouping
import ScenarioResults.Proofs.Tree.Tally

/-!
# What a builder makes of a stream

The content of the tree that a fresh builder grows from an accepted list of events is the grouping
of that list: `content_processAll`.

`completed b current as` is what the content becomes once the arrivals `as` have followed, where
`current` is the open segment so far. An accepted event leaves it as it is. At the start it is the
whole grouping, and at the end it is the content of the builder's tree.
-/

namespace ScenarioResults.Stream

open Builder (Accepts Yields)

variable {σ : Type}

/-- The segment goes on. -/
def Segment.extend (s : Segment) (as : List Arrival) : Segment := { s with body := s.body ++ as }

/-- The open segment after one arrival more. -/
def Segment.next (s : Segment) (a : Arrival) : Segment :=
  if a.isInner then s.extend [a] else { opener := a.event, body := [] }

/-- A scenario takes the items of arrivals that follow the earlier ones of its segment. -/
def filled (earlier as : List Arrival) (s : Scenario) : Scenario :=
  { s with
    before := s.before ++ as.filterMap Arrival.before?
    steps := s.steps ++ stepsAfter earlier as
    after := s.after ++ as.filterMap Arrival.after?
    attachments := s.attachments ++ as.filterMap Arrival.reference }

/-- The open scenario is filled and its feature gets more scenarios. -/
def enlarged (o : Open) (content : List Feature) (fill : Scenario → Scenario)
    (more : List Scenario) : List Feature :=
  match o with
  | .idle | .uriSeen _ => content
  | .inFeature i | .inBackground i _ _ =>
    content.modify i fun f => { f with scenarios := f.scenarios ++ more }
  | .inScenario id =>
    content.modify id.feature fun f =>
      { f with scenarios := f.scenarios.modify id.scenario fill ++ more }

/-- The content once the arrivals `as` have followed. -/
def completed (b : Builder σ) (current : Segment) (as : List Arrival) : List Feature :=
  let rest := as.takeWhile Arrival.isInner
  enlarged b.opened b.tree.content (filled current.body rest)
      (scenariosFrom (current.extend rest) (segments as)) ++
    featuresFrom current.opener (segments as)

/-- The builder stands in the segment `current`: it knows the announced document and the awaiting
step, and what it would hand to a scenario is what the segment says. -/
structure Stands (b : Builder σ) (current : Segment) : Prop where
  uri : b.opened.uri? = announced? current.opener
  adopted : ∀ header, b.opened.adopted header = scenarioOf header current.background? []
  pending : ∀ p, b.pending = some p →
    latestStep? current.body = some p.step ∧ latestGlue? current.body = p.glue

variable {b b' : Builder σ} {e : Event} {current : Segment} {a : Arrival} {as : List Arrival}

/-- An idle builder stands where a document has just ended. -/
theorem stands_of_idle (hidle : b.opened = .idle) (hpending : b.pending = none) :
    Stands b { opener := .endOfDocument, body := [] } where
  uri := by rw [hidle]; rfl
  adopted := fun header => by rw [hidle]; rfl
  pending := fun p hp => by simp [hpending] at hp

/-- A fresh builder stands where a document has just ended. -/
theorem stands_new (settings : Settings) (store : σ) :
    Stands (Builder.new settings store) { opener := .endOfDocument, body := [] } :=
  stands_of_idle rfl rfl

/-! ## Filling scenarios -/

@[simp]
theorem Segment.extend_nil (s : Segment) : s.extend [] = s := by simp [extend]

/-- A segment goes on part by part. -/
theorem Segment.extend_extend (s : Segment) (as bs : List Arrival) :
    (s.extend as).extend bs = s.extend (as ++ bs) := by simp [extend]

@[simp]
theorem filled_nil (earlier : List Arrival) : filled earlier [] = id := by
  funext s
  simp [filled, stepsAfter]

theorem filled_cons (earlier : List Arrival) (a : Arrival) (as : List Arrival) :
    filled earlier (a :: as) = filled (earlier ++ [a]) as ∘ filled earlier [a] := by
  funext s
  simp only [filled, stepsAfter, Function.comp_apply, List.filterMap_cons, List.filterMap_nil]
  cases a.before? <;> cases a.after? <;> cases a.reference <;> simp

/-- A scenario is filled by the arrivals of its own segment. -/
theorem filled_scenarioOf (header : Header) (background : Option (BackgroundHeader × List Arrival))
    (body : List Arrival) :
    filled [] body (scenarioOf header background []) = scenarioOf header background body := by
  simp [filled, scenarioOf, stepsAfter]

/-- An arrival that adds nothing leaves a scenario as it is. -/
theorem filled_of_quiet {earlier : List Arrival} (hbefore : a.before? = none)
    (hafter : a.after? = none) (hreference : a.reference = none)
    (hresolved : resolved? earlier a = none) : filled earlier [a] = id := by
  funext s
  simp [filled, stepsAfter, hbefore, hafter, hreference, hresolved]

section Process

variable [AttachmentStore σ] {item : Item}

/-- An arrival adds to a scenario the item that the builder makes of it. -/
theorem filled_of_yields (h : Yields b e item b') (hb : Stands b current) :
    filled current.body [(receive b.store e).1] = item.onScenario := by
  funext s
  cases h with
  -- the awaiting step is the latest one of the segment with its latest binding
  | result hpending =>
      obtain ⟨hstep, hglue⟩ := hb.pending _ hpending
      simp [filled, receive, stepsAfter, resolved?, hstep, hglue, Arrival.before?, Arrival.after?,
        Item.onScenario, PendingStep.resolved]
  | before | after =>
      simp [filled, receive, stepsAfter, resolved?, Arrival.before?, Arrival.after?,
        Item.onScenario]
  | embedding hoffer =>
      simp [filled, receive, hoffer, stepsAfter, resolved?, Arrival.before?, Arrival.after?,
        Item.onScenario, Except.toOption]

end Process

/-! ## Inner arrivals -/

/-- What the content becomes when an inner arrival is taken into the open segment. -/
theorem completed_inner (h : a.isInner = true) :
    completed b current (a :: as) =
      enlarged b.opened b.tree.content
          (filled (current.extend [a]).body (as.takeWhile Arrival.isInner) ∘
            filled current.body [a])
          (scenariosFrom ((current.extend [a]).extend (as.takeWhile Arrival.isInner))
            (segments as)) ++
        featuresFrom (current.extend [a]).opener (segments as) := by
  rw [completed, List.takeWhile_cons_of_pos h, segments, if_pos h, filled_cons,
    Segment.extend_extend]
  rfl

/-- An arrival that changes neither the content nor the open feature and scenario. -/
theorem completed_quiet (h : a.isInner = true) (hfilled : filled current.body [a] = id)
    (hopened : b'.opened = b.opened) (htree : b'.tree = b.tree) :
    completed b current (a :: as) = completed b' (current.extend [a]) as := by
  rw [completed_inner h, hfilled, Function.comp_id, completed, hopened, htree]

/-- An arrival held for the scenario that adopts the open background. -/
theorem completed_hold (h : a.isInner = true) {i : ℕ} {background background' : Background}
    {held held' : Held} (hopened : b.opened = .inBackground i background held)
    (hopened' : b'.opened = .inBackground i background' held') (htree : b'.tree = b.tree) :
    completed b current (a :: as) = completed b' (current.extend [a]) as := by
  rw [completed_inner h, completed, hopened, hopened', htree]
  rfl

/-- An arrival recorded for the open scenario. -/
theorem completed_record (h : a.isInner = true) {id : ScenarioId} {g : Scenario → Scenario}
    (hfilled : filled current.body [a] = g) (hopened : b.opened = .inScenario id)
    (hopened' : b'.opened = .inScenario id) (htree : b'.tree = b.tree.modifyScenario id g) :
    completed b current (a :: as) = completed b' (current.extend [a]) as := by
  rw [completed_inner h, hfilled, completed, hopened, hopened', htree, Tree.content_modifyScenario]
  simp only [enlarged, List.modify_modify_eq, Function.comp_def]

/-! ## Structural arrivals -/

/-- What the content becomes when a structural arrival closes the open segment. -/
theorem completed_structural (h : a.isInner = false) :
    completed b current (a :: as) =
      let s : Segment := { opener := a.event, body := as.takeWhile Arrival.isInner }
      enlarged b.opened b.tree.content id (scenariosFrom current (s :: segments as)) ++
        featuresFrom current.opener (s :: segments as) := by
  simp [completed, h, segments]

/-- Without more scenarios, and with nothing to fill in, the content stays. -/
theorem enlarged_nil (o : Open) (content : List Feature) : enlarged o content id [] = content := by
  cases o with
  | idle | uriSeen => rfl
  | inFeature i | inBackground i =>
      simp only [enlarged, List.append_nil]
      exact List.modify_id i content
  | inScenario id =>
      simp only [enlarged, List.modify_id, List.append_nil]
      exact List.modify_id id.feature content

/-- Where a document or feature begins or ends, the open feature and scenario are complete. -/
theorem completed_boundary (h : a.isInner = false)
    (hbackground : ∀ header, a.event ≠ .background header)
    (hscenario : ∀ header, a.event ≠ .scenario header) :
    completed b current (a :: as) =
      b.tree.content ++
        featuresFrom current.opener
          ({ opener := a.event, body := as.takeWhile Arrival.isInner } :: segments as) := by
  have hnone : ∀ s ss, s.opener = a.event → scenariosFrom current (s :: ss) = [] := by
    intro s ss hs
    unfold scenariosFrom
    split
    · next header hopener => exact absurd (hs.symm.trans hopener) (hscenario header)
    · next header hopener => exact absurd (hs.symm.trans hopener) (hbackground header)
    · rfl
  rw [completed_structural h]
  dsimp only
  rw [hnone _ _ rfl, enlarged_nil]

/-- Opening a feature: its scenarios are yet to come. -/
theorem completed_feature {header : Header} (hevent : a.event = .feature header)
    (huri : b.opened.uri? = announced? current.opener)
    (hopened : b'.opened = .inFeature b.tree.features.size)
    (htree : b'.tree = b.tree.addFeature b.opened.uri? header) :
    completed b current (a :: as) = completed b' { opener := a.event, body := [] } as := by
  have hinner : a.isInner = false := by simp [Arrival.isInner, hevent, Event.isStructural]
  -- the open feature is complete, and the new one is the last of the content
  rw [completed_boundary hinner (by simp [hevent]) (by simp [hevent]), completed, hopened, htree,
    Tree.content_addFeature, hevent, huri, ← Tree.length_content]
  simp [enlarged, featuresFrom, Segment.extend, modify_concat]

/-- Opening a background of the feature at a position. -/
theorem completed_background {header : BackgroundHeader} {i : ℕ} {background : Background}
    {held : Held} (hevent : a.event = .background header) (hfeature : b.opened.feature? = some i)
    (hopened : b'.opened = .inBackground i background held) (htree : b'.tree = b.tree) :
    completed b current (a :: as) = completed b' { opener := a.event, body := [] } as := by
  have hinner : a.isInner = false := by simp [Arrival.isInner, hevent, Event.isStructural]
  rw [completed_structural hinner, completed, hopened, htree, hevent]
  cases hopen : b.opened with
  | idle | uriSeen => simp [hopen, Open.feature?] at hfeature
  | inFeature j | inBackground j | inScenario id =>
      obtain rfl : _ = i := by simpa [hopen, Open.feature?] using hfeature
      simp [enlarged, scenariosFrom, featuresFrom, Segment.extend]

/-- Opening a scenario of the feature at a position: its items are yet to come. -/
theorem completed_scenario {header : Header} {i : ℕ} {owner : FeatureEntry}
    (hevent : a.event = .scenario header) (hfeature : b.opened.feature? = some i)
    (howner : b.tree.feature? i = some owner)
    (hadopted : b.opened.adopted header = scenarioOf header current.background? [])
    (hopened : b'.opened = .inScenario ⟨i, owner.scenarios.size⟩)
    (htree : b'.tree = b.tree.addScenario i (b.opened.adopted header)) :
    completed b current (a :: as) = completed b' { opener := a.event, body := [] } as := by
  have hinner : a.isInner = false := by simp [Arrival.isInner, hevent, Event.isStructural]
  -- the new scenario comes at the end of its feature, which is where its items will go
  have hi : b.tree.content[i]? = some owner.content := by
    rw [Tree.content_getElem?, howner]
    rfl
  have hsize : owner.scenarios.size = owner.content.scenarios.length := by
    simp [FeatureEntry.content, Name.Family.size_eq_length_values]
  rw [completed_structural hinner, completed, hopened, htree, hevent, hadopted,
    Tree.content_addScenario]
  cases hopen : b.opened with
  | idle | uriSeen => simp [hopen, Open.feature?] at hfeature
  | inFeature j | inBackground j | inScenario id =>
      obtain rfl : _ = i := by simpa [hopen, Open.feature?] using hfeature
      simp only [enlarged, scenariosFrom, featuresFrom, Segment.extend, List.modify_modify_eq,
        List.modify_id, List.nil_append]
      congr 1
      refine modify_congr fun f hf => ?_
      obtain rfl := Option.some.inj (hi.symm.trans hf)
      simp [hsize, modify_concat, filled_scenarioOf]

/-! ## Standing in a segment -/

/-- A background segment that goes on is one still, with a longer body. -/
theorem background?_extend (s : Segment) (as : List Arrival) :
    (s.extend as).background? = s.background?.map fun (h, _) => (h, s.body ++ as) := by
  unfold Segment.background? Segment.extend
  cases s.opener <;> rfl

/-- The arrivals of a background segment are its body. -/
theorem body_of_background? {s : Segment} {h : BackgroundHeader} {body : List Arrival}
    (hs : s.background? = some (h, body)) : body = s.body := by
  unfold Segment.background? at hs
  split at hs
  · exact (Prod.ext_iff.mp (Option.some.inj hs)).2.symm
  · simp at hs

/-- An arrival that adds nothing leaves a builder where it stands. -/
theorem Stands.quiet (hb : Stands b current) (hbefore : a.before? = none)
    (hafter : a.after? = none) (hreference : a.reference = none)
    (hresolved : resolved? current.body a = none) (hopened : b'.opened = b.opened)
    (hpending : ∀ p, b'.pending = some p →
      latestStep? (current.body ++ [a]) = some p.step ∧
        latestGlue? (current.body ++ [a]) = p.glue) :
    Stands b' (current.extend [a]) where
  uri := hopened ▸ hb.uri
  adopted := fun header => by
    rw [hopened, hb.adopted header, background?_extend]
    cases hbackground : current.background? with
    | none => rfl
    | some background =>
        obtain ⟨h, body⟩ := background
        obtain rfl := body_of_background? hbackground
        simp [scenarioOf, stepsAfter_concat, hbefore, hafter, hreference, hresolved]
  pending := hpending

/-- The awaiting step is not touched by an arrival that neither declares nor binds one. -/
theorem Stands.pending_concat (hb : Stands b current) (hstep : a.step? = none)
    (hglue : a.glue? = none) {p : PendingStep} (hp : b.pending = some p) :
    latestStep? (current.body ++ [a]) = some p.step ∧
      latestGlue? (current.body ++ [a]) = p.glue := by
  rw [latestStep?_concat, latestGlue?_concat hstep, hstep, hglue]
  exact hb.pending p hp

/-! ## One accepted event -/

section Process

variable [AttachmentStore σ] {item : Item}

/-- An event arrives as itself. -/
@[simp]
theorem event_receive (store : σ) (e : Event) : (receive store e).1.event = e := by
  cases e <;> rfl

/-- An event that is not structural arrives inside the open segment. -/
theorem isInner_receive (store : σ) (e : Event) :
    (receive store e).1.isInner = !e.isStructural := by
  rw [Arrival.isInner, event_receive]

/-- An inner arrival extends the open segment. -/
theorem next_of_inner (s : Segment) (h : a.isInner = true) : s.next a = s.extend [a] := if_pos h

/-- A structural arrival opens another segment. -/
theorem next_of_structural (s : Segment) (h : a.isInner = false) :
    s.next a = { opener := a.event, body := [] } := by simp [Segment.next, h]

/-- An accepted event leaves alone what the content becomes. -/
theorem completed_of_accepts (he : Accepts b e b') (hb : Stands b current) (as : List Arrival) :
    completed b current ((receive b.store e).1 :: as) =
      completed b' (current.next (receive b.store e).1) as := by
  have hevent := event_receive b.store e
  have hinner := isInner_receive b.store e
  -- structural arrivals open a segment; the others extend the open one, and of these only a
  -- recorded item shows in the content at once
  cases he with
  | documentStart | endOfDocument =>
      rw [next_of_structural _ hinner, completed_boundary hinner (by simp) (by simp)]
      simp [completed, enlarged, featuresFrom]
  | feature =>
      rw [next_of_structural _ hinner]
      exact completed_feature hevent hb.uri rfl rfl
  | background _ hfeature =>
      rw [next_of_structural _ hinner]
      exact completed_background hevent hfeature rfl rfl
  | @scenario header _ _ hfeature howner =>
      rw [next_of_structural _ hinner]
      exact completed_scenario hevent hfeature howner (hb.adopted header) rfl rfl
  | step | binding | write | outline | examples =>
      rw [next_of_inner _ hinner]
      exact completed_quiet hinner (filled_of_quiet rfl rfl rfl rfl) rfl rfl
  | hold hyields hopen =>
      obtain ⟨-, htree⟩ := hyields.same
      have hinner : (receive b.store e).1.isInner = true := by
        cases hyields <;> exact hinner
      rw [next_of_inner _ hinner]
      exact completed_hold hinner hopen rfl htree
  | record hyields hopen =>
      have hopened := hyields.same.1.trans hopen
      have hinner : (receive b.store e).1.isInner = true := by
        cases hyields <;> exact hinner
      rw [next_of_inner _ hinner]
      exact completed_record hinner (filled_of_yields hyields hb) hopen hopened rfl

/-- An item leaves a step waiting only as the segment has it. -/
theorem pending_of_yields (h : Yields b e item b') (hb : Stands b current) {p : PendingStep}
    (hp : b'.pending = some p) :
    latestStep? (current.body ++ [(receive b.store e).1]) = some p.step ∧
      latestGlue? (current.body ++ [(receive b.store e).1]) = p.glue := by
  cases h with
  | result => simp at hp
  | before | after | embedding => exact hb.pending_concat rfl rfl hp

/-- An item held for the scenario that adopts the open background is in the background's segment. -/
theorem adopted_of_yields (h : Yields b e item b') (hb : Stands b current) {i : ℕ}
    {background : Background} {held : Held} (hopen : b.opened = .inBackground i background held)
    (header : Header) :
    (Open.inBackground i (item.onBackground background) (item.onHeld held)).adopted header =
      scenarioOf header (current.extend [(receive b.store e).1]).background? [] := by
  have hadopted := hb.adopted header
  rw [hopen] at hadopted
  rw [background?_extend]
  cases hbackground : current.background? with
  | none => simp [hbackground, Open.adopted, scenarioOf] at hadopted
  | some entry =>
      obtain ⟨h', body⟩ := entry
      obtain rfl := body_of_background? hbackground
      simp only [hbackground, Open.adopted, scenarioOf, Option.map_some, Option.elim_some,
        List.append_nil, Scenario.mk.injEq, Option.some.injEq, true_and] at hadopted
      obtain ⟨rfl, hbefore, -, hafter, hattachments⟩ := hadopted
      cases h with
      | result hpending =>
          obtain ⟨hstep, hglue⟩ := hb.pending _ hpending
          simp [Open.adopted, scenarioOf, receive, stepsAfter_concat, resolved?, hstep, hglue,
            Arrival.before?, Arrival.after?, Item.onBackground, Item.onHeld, hbefore, hafter,
            hattachments, stepsAfter, PendingStep.resolved]
      | before | after =>
          simp [Open.adopted, scenarioOf, receive, stepsAfter_concat, resolved?, Arrival.before?,
            Arrival.after?, Item.onBackground, Item.onHeld, hbefore, hafter, hattachments,
            stepsAfter]
      | embedding hoffer =>
          simp [Open.adopted, scenarioOf, receive, hoffer, stepsAfter_concat, resolved?,
            Arrival.before?, Arrival.after?, Item.onBackground, Item.onHeld, hbefore, hafter,
            hattachments, stepsAfter, Except.toOption]

/-- An accepted event takes a builder further in its segment or into the next one. -/
theorem Stands.accepts (hb : Stands b current) (he : Accepts b e b') :
    Stands b' (current.next (receive b.store e).1) := by
  have hinner := isInner_receive b.store e
  cases he with
  | documentStart | feature | background | scenario | endOfDocument =>
      rw [next_of_structural _ hinner]
      exact ⟨rfl, fun _ => rfl, fun p hp => by simp at hp⟩
  | @step header _ _ =>
      rw [next_of_inner _ hinner]
      refine hb.quiet rfl rfl rfl rfl rfl fun p hp => ?_
      obtain rfl := Option.some.inj hp
      exact ⟨latestStep?_concat _ _, latestGlue?_concat_step rfl _⟩
  | @binding glue p hpending _ =>
      rw [next_of_inner _ hinner]
      refine hb.quiet rfl rfl rfl rfl rfl fun p' hp => ?_
      obtain rfl := Option.some.inj hp
      rw [latestStep?_concat, latestGlue?_concat rfl]
      exact ⟨(hb.pending p hpending).1, rfl⟩
  | write | outline | examples =>
      rw [next_of_inner _ hinner]
      exact hb.quiet rfl rfl rfl rfl rfl fun p hp => hb.pending_concat rfl rfl hp
  | hold hyields hopen =>
      have hinner : (receive b.store e).1.isInner = true := by
        cases hyields <;> exact hinner
      have huri := hb.uri
      rw [next_of_inner _ hinner]
      rw [hopen] at huri
      exact ⟨huri, adopted_of_yields hyields hb hopen, fun p hp => pending_of_yields hyields hb hp⟩
  | @record _ _ item id hyields hopen =>
      have hinner : (receive b.store e).1.isInner = true := by
        cases hyields <;> exact hinner
      have hopened := hyields.same.1
      -- a scenario is open, so the segment is not one that a background opens
      have hbackground : current.background? = none := by
        have hadopted := hb.adopted {}
        rw [hopen] at hadopted
        cases hcurrent : current.background? with
        | none => rfl
        | some background => simp [hcurrent, Open.adopted, scenarioOf] at hadopted
      rw [next_of_inner _ hinner]
      refine ⟨?_, fun header => ?_, fun p hp => pending_of_yields hyields hb hp⟩
      · exact hopened ▸ hb.uri
      · rw [background?_extend, hbackground, hopened, hb.adopted header, hbackground]
        rfl

/-! ## Whole streams -/

/-- An accepted event leaves the store that its arrival leaves. -/
theorem store_receive (he : Accepts b e b') : b'.store = (receive b.store e).2 := by
  cases he with
  | hold hyields | record hyields =>
      cases hyields with
      | result | before | after => rfl
      | embedding hoffer => simp [receive, hoffer]
  | _ => rfl

/-- A builder that accepts a list of events makes of its tree what the content becomes once they
have arrived. -/
theorem content_eq_completed (hb : Stands b current) {events : List Event}
    (h : (b.processAll events).error = none) :
    (b.processAll events).builder.tree.content = completed b current (arrivals b.store events) := by
  -- both the builder and the open segment move on with every event
  induction events generalizing b current with
  | nil =>
      have hdone : completed b current [] = b.tree.content := by
        simp [completed, segments, scenariosFrom, featuresFrom, enlarged_nil]
      exact hdone.symm
  | cons e events ih =>
      rw [Builder.processAll, Builder.error_andThen] at h
      have he := Builder.accepts_process h.1
      rw [Builder.processAll, Builder.builder_andThen h.1, arrivals,
        completed_of_accepts he hb, ← store_receive he]
      exact ih (hb.accepts he) h.2

/-- The tree that a fresh builder grows from a list of events it accepts holds what grouping the
list gives, before and after the final tally. -/
theorem content_processAll (settings : Settings) (store : σ) (events : List Event)
    (h : ((Builder.new settings store).processAll events).error = none) :
    ((Builder.new settings store).processAll events).builder.tree.content =
        grouped (arrivals store events) ∧
      ((Builder.new settings store).processAll events).builder.finish.value.content =
        grouped (arrivals store events) := by
  have hnew : ∀ as, completed (Builder.new settings store)
      { opener := .endOfDocument, body := [] } as = grouped as := by
    intro as
    simp [completed, enlarged, Builder.new, Tree.content, Name.Family.values, grouped]
  have hcontent := content_eq_completed (stands_new settings store) h
  rw [hnew] at hcontent
  exact ⟨hcontent, (Tree.content_tally _).trans hcontent⟩

/-- A bound step, hooks and a payload of a background reach the scenario after it, which has a bound
step, a hook and a payload of its own. Every field is told. -/
theorem content_processAll_background :
    let events : List Event :=
      [.documentStart "a.feature",
        .feature
          { id := some "f-id", keyword := "Feature", name := "a", description := "d", line := some 1
            tags := [{ name := "@x", line := some 2 }] },
        .background { keyword := "Background", name := "b", description := "e", line := some 3 },
        .before { location := some "H.b()" } { outcome := .passed, duration := { nanos := 5 } },
        .step { keyword := "Given ", name := "s", line := some 4 },
        .binding { location := some "S.s()" },
        .result { outcome := .failed, duration := { nanos := 7 }, message := some "no" },
        .after { location := some "H.a()" } { outcome := .skipped, message := some "late" },
        .embedding "text/plain" [],
        .scenario
          { id := some "s-id", keyword := "Scenario", name := "c", description := "g"
            line := some 6, tags := [{ name := "@y", line := some 5 }] },
        .step { keyword := "When ", name := "t", line := some 7 },
        .binding { location := some "S.t()" },
        .result { outcome := .undefined, duration := { nanos := 11 }, message := some "?" },
        .before { location := some "H.c()" } { outcome := .failed, duration := { nanos := 13 } },
        .embedding "image/png" [1],
        .endOfDocument]
    ((Builder.new {} ({} : Shelf)).processAll events).error = none ∧
      ((Builder.new {} ({} : Shelf)).processAll events).builder.tree.content =
        [{ uri := some "a.feature"
           header :=
             { id := some "f-id", keyword := "Feature", name := "a", description := "d"
               line := some 1, tags := [{ name := "@x", line := some 2 }] }
           scenarios :=
             [{ header :=
                  { id := some "s-id", keyword := "Scenario", name := "c", description := "g"
                    line := some 6, tags := [{ name := "@y", line := some 5 }] }
                background := some
                  { keyword := "Background", name := "b", line := some 3
                    steps :=
                      [{ keyword := "Given ", name := "s", line := some 4
                         location := some "S.s()"
                         verdict :=
                           { outcome := .failed, duration := { nanos := 7 }
                             message := some "no" } }] }
                before :=
                  [{ location := some "H.b()"
                     verdict := { outcome := .passed, duration := { nanos := 5 } } },
                    { location := some "H.c()"
                      verdict := { outcome := .failed, duration := { nanos := 13 } } }]
                steps :=
                  [{ keyword := "When ", name := "t", line := some 7, location := some "S.t()"
                     verdict :=
                       { outcome := .undefined, duration := { nanos := 11 }
                         message := some "?" } }]
                after :=
                  [{ location := some "H.a()"
                     verdict := { outcome := .skipped, message := some "late" } }]
                attachments :=
                  [{ mimeType := "text/plain", filename := "embed_1.txt" },
                    { mimeType := "image/png", filename := "embed_2.png" }] }] }] := by
  intro events
  have haccepted : ((Builder.new {} ({} : Shelf)).processAll events).error = none := by
    decide +kernel
  refine ⟨haccepted, ?_⟩
  rw [(content_processAll {} ({} : Shelf) events haccepted).1]
  decide +kernel

end Process

end ScenarioResults.Stream
