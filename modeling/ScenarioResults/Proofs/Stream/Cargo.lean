import ScenarioResults.Proofs.Stream.Fates

/-!
# What scenarios and backgrounds carry

Steps, hooks and attachments come one by one, join the open background or scenario, and go with the
background to the scenario that adopts it. A `Cargo` is one such kind of thing. Nothing of it is lost
but what is given up with a background: `carried_feed` for all that a run brings, and `gathered_feed`
for what it brings to backgrounds. No scenario has it in another order than that in which it came:
`InOrder.feed`.

## Shape of the proof

The open feature is always the last one (`AtEnd`), so a scenario that is opened comes last in the
tree, and an item goes to a scenario that is there. With this one turn is looked at, event by event
(`carried_process`, `gathered_turn`, `InOrder.process`), and a run turn by turn.
-/

namespace ScenarioResults

/-- The steps of the scenario, those of its background first. -/
def Scenario.allSteps (s : Scenario) : List Step := s.backgroundSteps ++ s.steps

namespace Tree

/-- Every scenario that is recorded, in tree order. -/
def recorded (t : Tree) : List Scenario := t.content.flatMap Feature.scenarios

/-- A new feature has no scenarios. -/
theorem recorded_addFeature (t : Tree) (uri : Option String) (header : Header) :
    (t.addFeature uri header).recorded = t.recorded := by
  simp [recorded, content_addFeature]

/-- A scenario that joins the last feature comes last. -/
theorem recorded_addScenario {t : Tree} {i : ℕ} (hlast : i + 1 = t.content.length) (s : Scenario) :
    (t.addScenario i s).recorded = t.recorded ++ [s] := by
  rw [recorded, recorded, content_addScenario]
  -- the last feature is split off, as `modify` reaches exactly that
  rcases List.eq_nil_or_concat' t.content with hnil | ⟨fs, f, hconcat⟩
  · simp [hnil] at hlast
  · obtain rfl : i = fs.length := by simpa [hconcat] using hlast
    rw [hconcat, modify_concat]
    simp

/-- A relation that a change respects holds of each scenario before and after it. -/
theorem forall₂_recorded_modifyScenario {R : Scenario → Scenario → Prop} {g : Scenario → Scenario}
    (hrefl : ∀ s, R s s) (hg : ∀ s, R s (g s)) (t : Tree) (id : ScenarioId) :
    List.Forall₂ R t.recorded (t.modifyScenario id g).recorded := by
  have hfeatures :
      List.Forall₂ (fun f f' : Feature => List.Forall₂ R f.scenarios f'.scenarios) t.content
        (t.modifyScenario id g).content := by
    rw [content_modifyScenario]
    refine forall₂_modify (fun f => ?_) (fun f => ?_) _ _
    · exact List.forall₂_same.mpr fun s _ => hrefl s
    · exact forall₂_modify hrefl hg f.scenarios id.scenario
  exact List.rel_flatMap hfeatures fun _ _ h => h

/-- A scenario of the changed tree was there before or is a changed one. -/
theorem mem_recorded_modifyScenario {t : Tree} {id : ScenarioId} {g : Scenario → Scenario}
    {s' : Scenario} (h : s' ∈ (t.modifyScenario id g).recorded) :
    ∃ s ∈ t.recorded, s' = s ∨ s' = g s :=
  exists_mem_of_forall₂
    (forall₂_recorded_modifyScenario (R := fun s s' => s' = s ∨ s' = g s) (fun _ => Or.inl rfl)
      (fun _ => Or.inr rfl) t id) h

/-- What a change brings to a scenario that exists it brings to the tree. -/
theorem perm_flatMap_modifyScenario {β : Type} {view : Scenario → List β} {t : Tree}
    {id : ScenarioId} {g : Scenario → Scenario} {more : List β} (hid : (t.scenario? id).isSome)
    (hg : ∀ s, view (g s) = view s ++ more) :
    ((t.modifyScenario id g).recorded.flatMap view).Perm (t.recorded.flatMap view ++ more) := by
  -- only as a permutation: the item joins a scenario in the middle
  obtain ⟨f, s, hf, hs⟩ := (isSome_scenario? t id).mp hid
  rw [recorded, recorded, List.flatMap_assoc, List.flatMap_assoc, content_modifyScenario]
  refine perm_flatMap_modify hf (perm_flatMap_modify hs ?_)
  rw [hg]

end Tree

namespace Item

/-- The step, if the item is one. -/
def step? : Item → Option Step
  | step s => some s
  | _ => none

/-- The setup hook, if the item is one. -/
def before? : Item → Option Hook
  | before h => some h
  | _ => none

/-- The teardown hook, if the item is one. -/
def after? : Item → Option Hook
  | after h => some h
  | _ => none

/-- The reference to an attachment, if the item is one. -/
def attachment? : Item → Option AttachmentRef
  | attachment r => some r
  | _ => none

/-- A scenario gains the step of an item behind its others. -/
theorem allSteps_onScenario (item : Item) (s : Scenario) :
    (item.onScenario s).allSteps = s.allSteps ++ item.step?.toList := by
  cases item <;> simp [Item.onScenario, Scenario.allSteps, Scenario.backgroundSteps, Item.step?]

/-- So does a background. -/
theorem steps_onBackground (item : Item) (background : Background) :
    (item.onBackground background).steps = background.steps ++ item.step?.toList := by
  cases item <;> simp [Item.onBackground, Item.step?]

end Item

/-- The item of the turn's event, if it is accepted and has one. -/
def Turn.item? {σ : Type} [AttachmentStore σ] (t : Turn σ) : Option Item :=
  t.accepted?.bind (Stream.item? t.builder)

/-- What the turn adds to the open background and what is held for its scenario. -/
def Turn.heldItem? {σ : Type} [AttachmentStore σ] (t : Turn σ) : Option Item :=
  if t.builder.opened.gathered?.isSome then t.accepted?.bind (Stream.item? t.builder) else none

namespace Stream

open Builder (Accepts Yields)

variable {σ β : Type} {b b' : Builder σ} {e : Event}

/-! ## Cargo -/

/-- Something that items bring to scenarios and backgrounds, and that a scenario takes over from the
background that it adopts. What a background has gathered counts all that is held for its scenario.
-/
structure Cargo (β : Type) where
  item : Item → List β
  scenario : Scenario → List β
  gathered : Background × Held → List β
  onScenario : ∀ i s, scenario (i.onScenario s) = scenario s ++ item i
  gather : ∀ i w, gathered (gather i w) = gathered w ++ item i
  declared : ∀ keyword name line, gathered ({ keyword, name, line }, {}) = []
  adopted : ∀ (o : Open) header, scenario (o.adopted header) = o.gathered?.elim [] gathered

namespace Cargo

variable (c : Cargo β)

/-- What the tree has, in tree order. -/
def inTree (t : Tree) : List β := t.recorded.flatMap c.scenario

/-- What the open background has. -/
def inOpen (o : Open) : List β := o.gathered?.elim [] c.gathered

/-- What is given up with a background. -/
def lost : BackgroundEnd → List β
  | .adopted _ _ => []
  | .discarded gathered _ => c.gathered gathered

/-- Steps, those of a scenario's background first. -/
def steps : Cargo Step where
  item i := i.step?.toList
  scenario := Scenario.allSteps
  gathered w := w.1.steps
  onScenario := Item.allSteps_onScenario
  gather i w := i.steps_onBackground w.1
  declared _ _ _ := rfl
  adopted o _ := by
    cases o <;> simp [Open.adopted, Open.gathered?, Scenario.allSteps, Scenario.backgroundSteps]

/-- Setup hooks. -/
def before : Cargo Hook where
  item i := i.before?.toList
  scenario := Scenario.before
  gathered w := w.2.before
  onScenario i _ := by cases i <;> simp [Item.onScenario, Item.before?]
  gather i _ := by cases i <;> simp [Stream.gather, Item.onHeld, Item.before?]
  declared _ _ _ := rfl
  adopted o _ := by cases o <;> rfl

/-- Teardown hooks. -/
def after : Cargo Hook where
  item i := i.after?.toList
  scenario := Scenario.after
  gathered w := w.2.after
  onScenario i _ := by cases i <;> simp [Item.onScenario, Item.after?]
  gather i _ := by cases i <;> simp [Stream.gather, Item.onHeld, Item.after?]
  declared _ _ _ := rfl
  adopted o _ := by cases o <;> rfl

/-- References to attachments. -/
def attachments : Cargo AttachmentRef where
  item i := i.attachment?.toList
  scenario := Scenario.attachments
  gathered w := w.2.attachments
  onScenario i _ := by cases i <;> simp [Item.onScenario, Item.attachment?]
  gather i _ := by cases i <;> simp [Stream.gather, Item.onHeld, Item.attachment?]
  declared _ _ _ := rfl
  adopted o _ := by cases o <;> rfl

end Cargo

/-- Scenarios and the open background have what they carry in the order in which it came. -/
structure InOrder (c : Cargo β) (came : List β) (b : Builder σ) : Prop where
  recorded : ∀ s ∈ b.tree.recorded, (c.scenario s).Sublist came
  opened : (c.inOpen b.opened).Sublist came

/-- Whatever is carried has come. -/
theorem InOrder.mem {c : Cargo β} {came : List β} (h : InOrder c came b) {x : β}
    (hx : x ∈ c.inTree b.tree ++ c.inOpen b.opened) : x ∈ came := by
  rcases List.mem_append.mp hx with htree | hopen
  · obtain ⟨s, hs, hx⟩ := List.mem_flatMap.mp htree
    exact (h.recorded s hs).subset hx
  · exact h.opened.subset hopen

/-! ## The end of the tree -/

/-- The handles of the builder are good, and the open feature is the last one. -/
structure AtEnd (b : Builder σ) : Prop where
  anchored : b.Anchored
  last : ∀ i, b.opened.feature? = some i → i + 1 = b.tree.content.length

/-- A fresh builder has no feature open. -/
theorem atEnd_new (settings : Settings) (store : σ) : AtEnd (Builder.new settings store) :=
  ⟨Builder.anchored_new settings store, fun _ h => by simp [Builder.new, Open.feature?] at h⟩

section Process

variable [AttachmentStore σ]

/-- An accepted event leaves the open feature the last one. -/
theorem last_of_accepts (h : Accepts b e b') (hb : AtEnd b) :
    ∀ i, b'.opened.feature? = some i → i + 1 = b'.tree.content.length := by
  cases h with
  | documentStart | endOfDocument => simp [Open.feature?]
  | feature =>
      intro i hi
      obtain rfl : b.tree.features.size = i := by simpa [Open.feature?] using hi
      simp [Tree.content_addFeature, Tree.length_content]
  | background _ hfeature =>
      intro i hi
      exact hb.last i (hfeature.trans hi)
  | scenario hfeature =>
      intro i hi
      simpa [Tree.content_addScenario] using hb.last i (hfeature.trans hi)
  | step | binding | write | outline | examples => exact hb.last
  | hold hyields hopen =>
      intro i hi
      rw [hyields.same.2]
      exact hb.last i (by simpa [hopen, Open.feature?] using hi)
  | record hyields hopen =>
      intro i hi
      simpa [Tree.content_modifyScenario] using hb.last i (hyields.same.1 ▸ hi)

/-- Every event leaves the open feature the last one. -/
theorem atEnd_process (hb : AtEnd b) (e : Event) : AtEnd (b.process e).builder := by
  refine ⟨Builder.anchored_process hb.anchored e, ?_⟩
  cases herror : (b.process e).error with
  | none => exact last_of_accepts (Builder.accepts_process herror) hb
  | some error =>
      have hrefuses := Builder.refuses_process hb.anchored herror
      generalize (b.process e).builder = b' at hrefuses
      cases hrefuses <;> exact hb.last

/-! ## Nothing is lost -/

/-- An item ends no wait of a background. -/
theorem backgroundEnd?_of_yields {item : Item} (h : Yields b e item b') (w : Background × Held) :
    backgroundEnd? w e = none := by
  cases h <;> rfl

/-- The event that yields an item brings this item. -/
theorem items_of_yields (c : Cargo β) {item : Item} (h : Yields b e item b') :
    (item? b e).toList.flatMap c.item = c.item item := by
  simp [Yields.item? h]

/-- What an accepted event leaves in the tree and the open background, and what it gives up with a
background, is what was there and what its item brings. -/
theorem carried_of_accepts (c : Cargo β) (h : Accepts b e b') (hb : AtEnd b) :
    (c.inTree b'.tree ++ c.inOpen b'.opened ++
        (b.opened.gathered?.bind (backgroundEnd? · e)).toList.flatMap c.lost).Perm
      (c.inTree b.tree ++ c.inOpen b.opened ++ (item? b e).toList.flatMap c.item) := by
  simp only [Cargo.inTree, Cargo.inOpen]
  cases h with
  | documentStart | feature | endOfDocument =>
      cases b.opened.gathered? <;>
        simp [Open.gathered?, Tree.recorded_addFeature, backgroundEnd?, item?, Cargo.lost]
  | background hopen =>
      rw [Open.background?_eq, Option.map_eq_none_iff] at hopen
      rw [hopen]
      simp [Open.gathered?, item?, c.declared]
  | @scenario header i _ hfeature =>
      rw [Tree.recorded_addScenario (hb.last i hfeature), List.flatMap_append,
        List.flatMap_singleton, c.adopted]
      cases b.opened.gathered? <;> simp [Open.gathered?, backgroundEnd?, item?, Cargo.lost]
  | step | binding | write | outline | examples =>
      cases b.opened.gathered? <;> simp [backgroundEnd?, item?]
  | @hold _ _ item _ background held hyields hopen =>
      have hgather := c.gather item (background, held)
      simp only [gather] at hgather
      rw [items_of_yields c hyields]
      simp [hyields.same.2, Open.gathered?, hopen, hgather, backgroundEnd?_of_yields hyields]
  | @record _ _ item _ hyields hopen hscenario =>
      have hperm := Tree.perm_flatMap_modifyScenario hscenario (c.onScenario item)
      rw [items_of_yields c hyields]
      simpa [Open.gathered?, hyields.same.1, hopen] using hperm

/-- Each turn conserves what scenarios and backgrounds carry. -/
theorem carried_process (c : Cargo β) (hb : AtEnd b) (e : Event) :
    (c.inTree (b.process e).builder.tree ++ c.inOpen (b.process e).builder.opened ++
        (backgroundWait.ending? ⟨b, e⟩ b.opened.gathered?).toList.flatMap c.lost).Perm
      (c.inTree b.tree ++ c.inOpen b.opened ++
        (Turn.item? (⟨b, e⟩ : Turn σ)).toList.flatMap c.item) := by
  cases herror : (b.process e).error with
  | none =>
      rw [backgroundWait_ending_of_accepted herror, Turn.item?, Turn.accepted?_of_accepted herror]
      exact carried_of_accepts c (Builder.accepts_process herror) hb
  | some error =>
      rw [backgroundWait_ending_of_refused herror, Turn.item?, Turn.accepted?_of_refused herror]
      have hrefuses := Builder.refuses_process hb.anchored herror
      generalize (b.process e).builder = b' at hrefuses
      cases hrefuses <;> exact .refl _

/-- What the first turn of a run brings comes before what the others bring. -/
theorem items_cons (c : Cargo β) (b : Builder σ) (e : Event) (events : List Event) :
    ((b.turns (e :: events)).filterMap Turn.item?).flatMap c.item =
      (Turn.item? (⟨b, e⟩ : Turn σ)).toList.flatMap c.item ++
        (((b.process e).builder.turns events).filterMap Turn.item?).flatMap c.item := by
  rw [Builder.turns, List.filterMap_cons]
  cases Turn.item? (⟨b, e⟩ : Turn σ) <;> simp

/-- A run conserves what scenarios and backgrounds carry. -/
theorem carried_feed (c : Cargo β) (hb : AtEnd b) (events : List Event) :
    (c.inTree (b.feed events).tree ++ c.inOpen (b.feed events).opened ++
        (backgroundWait.endings b.opened.gathered? (b.turns events)).flatMap c.lost).Perm
      (c.inTree b.tree ++ c.inOpen b.opened ++
        ((b.turns events).filterMap Turn.item?).flatMap c.item) := by
  induction events generalizing b with
  | nil => simp [Builder.turns, Wait.endings_nil, Builder.feed]
  | cons e events ih =>
      have hturn := carried_process c hb e
      have hrest := ih (atEnd_process hb e)
      have hfeed : b.feed (e :: events) = (b.process e).builder.feed events := rfl
      rw [follows_gathered.endings_cons hb.anchored, List.flatMap_append, items_cons, hfeed]
      classical
      rw [List.perm_iff_count] at hturn hrest ⊢
      intro x
      have hturn := hturn x
      have hrest := hrest x
      simp only [List.count_append] at hturn hrest ⊢
      -- what the builder carries after the turn stands on both sides
      omega

/-! ## What backgrounds gather -/

/-- What a turn adds to the open background is gathered by it, and none of this is lost when its
wait ends. -/
theorem gathered_turn (c : Cargo β) (hb : b.Anchored) (e : Event) :
    (backgroundWait.ending? ⟨b, e⟩ b.opened.gathered?).toList.flatMap
          (fun f => c.gathered f.gathered) ++
        (b.process e).builder.opened.gathered?.toList.flatMap c.gathered =
      b.opened.gathered?.toList.flatMap c.gathered ++
        (Turn.heldItem? (⟨b, e⟩ : Turn σ)).toList.flatMap c.item := by
  rw [follows_gathered.next hb e]
  cases herror : (b.process e).error with
  | none =>
      rw [backgroundWait_ending_of_accepted herror, backgroundWait_next_of_accepted herror,
        Turn.heldItem?, Turn.accepted?_of_accepted herror]
      cases hopen : b.opened.gathered? with
      | none => cases e <;> simp [declaredBackground?, c.declared]
      | some w =>
          cases e with
          | background => simp [gathered?_of_background herror] at hopen
          | documentStart | feature | scenario | endOfDocument =>
              simp [backgroundEnd?, BackgroundEnd.gathered, declaredBackground?, item?]
          | step | binding | result | before | after | embedding | write | outline | examples
          | syntaxError =>
              simp only [backgroundEnd?, declaredBackground?, Option.bind_some]
              generalize item? b _ = item
              cases item <;> simp [c.gather]
  | some error =>
      rw [backgroundWait_ending_of_refused herror, backgroundWait_next_of_refused herror]
      simp [Turn.heldItem?, Turn.accepted?_of_refused herror]

/-- All that a run gives to backgrounds is, in order, with the backgrounds. -/
theorem gathered_feed (c : Cargo β) (hb : b.Anchored) (events : List Event) :
    (backgroundWait.accounted b.opened.gathered? (b.turns events)).flatMap
        (fun f => c.gathered (gatheredBy f)) =
      b.opened.gathered?.toList.flatMap c.gathered ++
        ((b.turns events).filterMap Turn.heldItem?).flatMap c.item := by
  induction events generalizing b with
  | nil =>
      rw [Builder.turns, Wait.accounted_nil]
      cases b.opened.gathered? <;> simp [gatheredBy]
  | cons e events ih =>
      have hturn := gathered_turn c hb e
      have hended : ∀ f? : Option BackgroundEnd,
          (f?.map Fate.ended).toList.flatMap (fun f => c.gathered (gatheredBy f)) =
            f?.toList.flatMap fun f => c.gathered f.gathered := fun f? => by cases f? <;> rfl
      rw [follows_gathered.accounted_cons hb, List.flatMap_append, hended,
        ih (Builder.anchored_process hb e), ← List.append_assoc, hturn, List.append_assoc,
        Builder.turns, List.filterMap_cons]
      cases Turn.heldItem? ⟨b, e⟩ <;> simp

/-- The items of one kind that a run from the start gives to backgrounds. -/
theorem gathered_new (settings : Settings) (store : σ) {c : Cargo β} {kind? : Item → Option β}
    (hitem : ∀ item, c.item item = (kind? item).toList) (events : List Event) :
    (backgroundWait.fates ((Builder.new settings store).turns events)).flatMap
        (fun f => c.gathered (gatheredBy f)) =
      (((Builder.new settings store).turns events).filterMap Turn.heldItem?).filterMap kind? := by
  rw [List.filterMap_eq_flatMap_toList kind?, ← funext hitem]
  exact gathered_feed c (Builder.anchored_new settings store) events

/-! ## Order of arrival -/

omit [AttachmentStore σ] in
/-- A fresh builder carries nothing. -/
theorem inOrder_new (c : Cargo β) (settings : Settings) (store : σ) :
    InOrder c [] (Builder.new settings store) :=
  ⟨(fun _ hs => nomatch hs), List.Sublist.slnil⟩

/-- What an accepted event brings comes behind what was there. -/
theorem InOrder.accepts {c : Cargo β} {came : List β} (ho : InOrder c came b) (hb : AtEnd b)
    (h : Accepts b e b') : InOrder c (came ++ (item? b e).toList.flatMap c.item) b' := by
  obtain ⟨hrecorded, hopened⟩ := ho
  unfold Cargo.inOpen at hopened
  cases h with
  | documentStart | feature | endOfDocument | background =>
      simp only [item?, Option.toList_none, List.flatMap_nil, List.append_nil]
      refine ⟨?_, by simp [Cargo.inOpen, Open.gathered?, c.declared]⟩
      simpa only [Tree.recorded_addFeature] using hrecorded
  | @scenario header i _ hfeature =>
      simp only [item?, Option.toList_none, List.flatMap_nil, List.append_nil]
      refine ⟨fun s hs => ?_, List.nil_sublist _⟩
      rw [Tree.recorded_addScenario (hb.last i hfeature), List.mem_append,
        List.mem_singleton] at hs
      rcases hs with hs | rfl
      · exact hrecorded s hs
      · rwa [c.adopted]
  | step | binding | write | outline | examples =>
      simp only [item?, Option.toList_none, List.flatMap_nil, List.append_nil]
      exact ⟨hrecorded, hopened⟩
  -- the background is extended at its end, so it stays a sublist
  | @hold _ _ item _ background held hyields hopen =>
      rw [hopen] at hopened
      rw [items_of_yields c hyields]
      refine ⟨fun s hs => ?_, ?_⟩
      · rw [hyields.same.2] at hs
        exact (hrecorded s hs).trans (List.sublist_append_left _ _)
      · change (c.gathered (gather item (background, held))).Sublist _
        rw [c.gather]
        exact hopened.append (.refl _)
  | @record _ _ item id hyields hopen hscenario =>
      rw [items_of_yields c hyields]
      refine ⟨fun s' hs' => ?_, ?_⟩
      · obtain ⟨s, hs, hsame | hmore⟩ := Tree.mem_recorded_modifyScenario hs'
        · rw [hsame]
          exact (hrecorded s hs).trans (List.sublist_append_left _ _)
        · rw [hmore, c.onScenario]
          exact (hrecorded s hs).append (.refl _)
      · simp [Cargo.inOpen, Open.gathered?, hyields.same.1, hopen]

/-- Any turn leaves what is carried in the order of arrival. -/
theorem InOrder.process {c : Cargo β} {came : List β} (ho : InOrder c came b) (hb : AtEnd b)
    (e : Event) :
    InOrder c (came ++ (Turn.item? (⟨b, e⟩ : Turn σ)).toList.flatMap c.item)
      (b.process e).builder := by
  cases herror : (b.process e).error with
  | none =>
      rw [Turn.item?, Turn.accepted?_of_accepted herror]
      exact ho.accepts hb (Builder.accepts_process herror)
  | some error =>
      rw [Turn.item?, Turn.accepted?_of_refused herror]
      have hrefuses := Builder.refuses_process hb.anchored herror
      generalize (b.process e).builder = b' at hrefuses
      simp only [Option.bind_none, Option.toList_none, List.flatMap_nil, List.append_nil]
      cases hrefuses <;> exact ⟨ho.recorded, ho.opened⟩

/-- What a run brings stays in the order in which it came. -/
theorem InOrder.feed {c : Cargo β} {came : List β} (ho : InOrder c came b) (hb : AtEnd b)
    (events : List Event) :
    InOrder c (came ++ ((b.turns events).filterMap Turn.item?).flatMap c.item)
      (b.feed events) := by
  induction events generalizing b came with
  | nil => simpa [Builder.turns, Builder.feed] using ho
  | cons e events ih =>
      have hrest := ih (ho.process hb e) (atEnd_process hb e)
      rw [List.append_assoc, ← items_cons] at hrest
      exact hrest

end Process

end Stream

end ScenarioResults
