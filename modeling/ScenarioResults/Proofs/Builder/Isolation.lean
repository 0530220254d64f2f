import ScenarioResults.Proofs.Attachment
import ScenarioResults.Proofs.Builder.Continuing
import ScenarioResults.Proofs.Builder.Resuming

/-!
# Documents are isolated

What a document becomes does not depend on what the builder was fed before. A builder that may start
a document takes all of it that a new builder takes, and what it adds is what the new builder has in
the end: the same features behind its own, the same open context, the same awaiting step, and the
same attachments under the numbers behind its own (`processAll_isolated`).

## Shape of the proof

Only two things of the past can show. One is the number of features in front, and `Builder.behind`
is about that. The other is the number of attachments in front: a builder whose shelf is not new
`Mirrors` one whose shelf is, event by event (`Mirrors.accepts`). Nothing else is left once the
announcement of the document is accepted, as it gives up the open context and the awaiting step.
-/

namespace ScenarioResults

/-! ## Attachments behind others -/

/-- The reference of a shelf with `n` attachments in front. -/
def AttachmentRef.renumber (n : ℕ) (r : AttachmentRef) : AttachmentRef :=
  { r with filename := Shelf.filename (n + Shelf.number r.filename) r.mimeType }

@[simp]
theorem AttachmentRef.renumber_mk (n i : ℕ) (mimeType : String) :
    renumber n { mimeType, filename := Shelf.filename i mimeType } =
      { mimeType, filename := Shelf.filename (n + i) mimeType } := by
  simp [renumber]

/-- The attachment of a shelf with `n` attachments in front. -/
def Attachment.renumber (n : ℕ) (a : Attachment) : Attachment :=
  { a with filename := Shelf.filename (n + Shelf.number a.filename) a.mimeType }

/-- The scenario with `n` attachments in front. -/
def Scenario.renumber (n : ℕ) (s : Scenario) : Scenario :=
  { s with attachments := s.attachments.map (·.renumber n) }

/-- The feature with `n` attachments in front. -/
def Feature.renumber (n : ℕ) (f : Feature) : Feature :=
  { f with scenarios := f.scenarios.map (·.renumber n) }

/-- What is held, with `n` attachments in front. -/
def Held.renumber (n : ℕ) (held : Held) : Held :=
  { held with attachments := held.attachments.map (·.renumber n) }

/-- The item with `n` attachments in front. -/
def Item.renumber (n : ℕ) : Item → Item
  | attachment r => attachment (r.renumber n)
  | item => item

/-- The open context with `n` attachments in front. -/
def Open.renumber (n : ℕ) : Open → Open
  | inBackground i background held => inBackground i background (held.renumber n)
  | o => o

namespace Open

variable (n : ℕ) (o : Open)

/-- Renumbering keeps the context. -/
@[simp]
theorem context_renumber : (o.renumber n).context = o.context := by cases o <;> rfl

/-- It keeps the open feature. -/
@[simp]
theorem feature?_renumber : (o.renumber n).feature? = o.feature? := by cases o <;> rfl

/-- It keeps the announced document. -/
@[simp]
theorem uri?_renumber : (o.renumber n).uri? = o.uri? := by cases o <;> rfl

/-- It keeps the name of the open background. -/
@[simp]
theorem background?_renumber : (o.renumber n).background? = o.background? := by cases o <;> rfl

/-- The scenario that adopts what is open has its references renumbered. -/
theorem adopted_renumber (header : Header) :
    (o.renumber n).adopted header = (o.adopted header).renumber n := by
  cases o <;> rfl

end Open

namespace Item

variable (n : ℕ) (item : Item)

/-- A renumbered item goes to a renumbered scenario as the item goes to the scenario. -/
theorem onScenario_renumber (s : Scenario) :
    (item.onScenario s).renumber n = (item.renumber n).onScenario (s.renumber n) := by
  cases item <;> simp [onScenario, renumber, Scenario.renumber]

/-- A background takes no references, so it takes a renumbered item as it takes the item. -/
theorem onBackground_renumber (background : Background) :
    (item.renumber n).onBackground background = item.onBackground background := by
  cases item <;> rfl

/-- A renumbered item is held with renumbered ones as the item is held with the others. -/
theorem onHeld_renumber (held : Held) :
    (item.onHeld held).renumber n = (item.renumber n).onHeld (held.renumber n) := by
  cases item <;> simp [onHeld, renumber, Held.renumber]

end Item

namespace Builder

/-! ## The announcement of a document -/

section Announcement

variable {σ : Type} [AttachmentStore σ]

omit [AttachmentStore σ] in
/-- No document awaits its feature unless the context says so. -/
theorem uri?_eq_none_iff (b : Builder σ) : b.opened.uri? = none ↔ b.context ≠ .uriSeen := by
  rw [Builder.context]
  cases b.opened <;> simp [Open.uri?, Open.context]

/-- A document may be announced unless one awaits its feature or, in strict ordering, a step awaits
its result. -/
theorem error_documentStart_iff (b : Builder σ) (uri : String) :
    (b.process (.documentStart uri)).error = none ↔ b.context ≠ .uriSeen ∧ b.Ready := by
  rw [← uri?_eq_none_iff]
  constructor
  · intro h
    have haccepts := accepts_process h
    generalize (b.process (.documentStart uri)).builder = b' at haccepts
    cases haccepts with
    | documentStart hopen hready => exact ⟨hopen, hready⟩
    | hold hyields | record hyields => cases hyields
  · rintro ⟨hopen, hready⟩
    exact (Accepts.documentStart hopen hready).process.1

/-- Once the announcement of a document is accepted, it does not matter what was open or awaited. -/
theorem processAll_documentStart (b : Builder σ) {uri : String}
    (h : (b.process (.documentStart uri)).error = none) (es : List Event) :
    let clean := (new b.settings b.store).continuing b.tree
    (b.processAll (.documentStart uri :: es)).builder =
        (clean.processAll (.documentStart uri :: es)).builder ∧
      ((b.processAll (.documentStart uri :: es)).error = none ↔
        (clean.processAll (.documentStart uri :: es)).error = none) := by
  intro clean
  obtain ⟨hcontext, hready⟩ := (error_documentStart_iff b uri).mp h
  have hopen := (uri?_eq_none_iff b).mpr hcontext
  have haccepts : Accepts b (.documentStart uri) _ := .documentStart hopen hready
  have haccepts' : Accepts clean (.documentStart uri) _ := .documentStart rfl fun _ => rfl
  obtain ⟨hfirst, hbuilder⟩ := haccepts.process
  obtain ⟨hfirst', hbuilder'⟩ := haccepts'.process
  rw [Builder.processAll, Builder.processAll, builder_andThen hfirst, builder_andThen hfirst',
    error_andThen, error_andThen, hbuilder, hbuilder']
  exact ⟨rfl, and_congr (iff_of_true hfirst hfirst') Iff.rfl⟩

end Announcement

/-! ## Other attachments in front -/

variable {front : List Attachment} {b b' c : Builder Shelf} {e : Event}

/-- The builder `c` is `b` with other attachments in front of its own. -/
structure Mirrors (front : List Attachment) (b c : Builder Shelf) : Prop where
  settings : c.settings = b.settings
  content : c.tree.content = b.tree.content.map (·.renumber front.length)
  opened : c.opened = b.opened.renumber front.length
  pending : c.pending = b.pending
  stored : c.store.stored = front ++ b.store.stored.map (·.renumber front.length)

/-- A new builder with attachments in its store mirrors one with an empty store. -/
theorem mirrors_new (settings : Settings) (s : Shelf) :
    Mirrors s.stored (new settings {}) (new settings s) :=
  ⟨rfl, rfl, rfl, rfl, (List.append_nil _).symm⟩

namespace Mirrors

/-- Both builders are ready for a structural event or neither is. -/
theorem ready (hm : Mirrors front b c) : c.Ready ↔ b.Ready := by
  rw [Ready, Ready, hm.settings, hm.pending]

/-- Both trees have the same number of features. -/
theorem size (hm : Mirrors front b c) : c.tree.features.size = b.tree.features.size := by
  rw [← Tree.length_content, hm.content, List.length_map, Tree.length_content]

/-- An event yields the same item as before, with its attachment behind the others. -/
theorem yields {item : Item} (hm : Mirrors front b c) (h : Yields b e item b') :
    ∃ c', Yields c e (item.renumber front.length) c' ∧ Mirrors front b' c' := by
  obtain ⟨hsettings, hcontent, hopened, hpending, hstored⟩ := hm
  cases h with
  | result hwaiting =>
      exact ⟨_, .result (hpending.trans hwaiting), hsettings, hcontent, hopened, rfl, hstored⟩
  | before => exact ⟨_, .before, hsettings, hcontent, hopened, hpending, hstored⟩
  | after => exact ⟨_, .after, hsettings, hcontent, hopened, hpending, hstored⟩
  | @embedding mimeType data _ _ hoffer =>
      cases hoffer
      -- both stores are one file apart from the same next number
      have hnumber : front.length + (b.store.stored.length + 1) = c.store.stored.length + 1 := by
        rw [hstored, List.length_append, List.length_map, Nat.add_assoc]
      have hitem : Item.renumber front.length
          (.attachment { mimeType, filename := Shelf.filename (b.store.stored.length + 1) mimeType }) =
            .attachment
              { mimeType, filename := Shelf.filename (c.store.stored.length + 1) mimeType } := by
        rw [Item.renumber, AttachmentRef.renumber_mk, hnumber]
      refine ⟨{ c with store := (c.store.put mimeType data).2 }, hitem ▸ .embedding rfl, hsettings,
        hcontent, hopened, hpending, ?_⟩
      simp [Shelf.put, Attachment.renumber, hnumber, hstored]

/-- Where one tree has a feature the other has one with as many scenarios. -/
theorem feature? (hm : Mirrors front b c) {i : ℕ} {owner : FeatureEntry}
    (howner : b.tree.feature? i = some owner) :
    ∃ owner', c.tree.feature? i = some owner' ∧ owner'.scenarios.size = owner.scenarios.size := by
  have hcontent : (c.tree.feature? i).map FeatureEntry.content =
      some (owner.content.renumber front.length) := by
    rw [← Tree.content_getElem?, hm.content, List.getElem?_map, Tree.content_getElem?, howner]
    rfl
  obtain ⟨owner', howner', hsame⟩ := Option.map_eq_some_iff.mp hcontent
  refine ⟨owner', howner', ?_⟩
  have hlength := congrArg (fun f : Feature => f.scenarios.length) hsame
  simpa [FeatureEntry.content, Feature.renumber, ← Name.Family.size_eq_length_values] using hlength

/-- Where one tree has a scenario the other has one. -/
theorem isSome_scenario? (hm : Mirrors front b c) {id : ScenarioId}
    (h : (b.tree.scenario? id).isSome) : (c.tree.scenario? id).isSome := by
  rw [Tree.isSome_scenario?] at h ⊢
  obtain ⟨f, s, hf, hs⟩ := h
  refine ⟨f.renumber front.length, s.renumber front.length, ?_, ?_⟩
  · rw [hm.content, List.getElem?_map, hf]
    rfl
  · rw [Feature.renumber, List.getElem?_map, hs]
    rfl

/-- What is accepted is accepted with other attachments in front, and comes to the same. -/
theorem accepts (hm : Mirrors front b c) (h : Accepts b e b') :
    ∃ c', Accepts c e c' ∧ Mirrors front b' c' := by
  have hsize := hm.size
  have hready := hm.ready
  obtain ⟨hsettings, hcontent, hopened, hpending, hstored⟩ := id hm
  cases h with
  | documentStart hopen hb =>
      exact ⟨_, .documentStart (by rwa [hopened, Open.uri?_renumber]) (hready.mpr hb),
        hsettings, hcontent, rfl, rfl, hstored⟩
  | feature hb =>
      refine ⟨_, .feature (hready.mpr hb), hsettings, ?_, ?_, rfl, hstored⟩
      · simp [Tree.content_addFeature, hcontent, hopened, Feature.renumber]
      · rw [hsize]
        rfl
  | background hopen hfeature hb =>
      exact ⟨_, .background (by rwa [hopened, Open.background?_renumber])
          (by rwa [hopened, Open.feature?_renumber]) (hready.mpr hb),
        hsettings, hcontent, rfl, rfl, hstored⟩
  | @scenario header i owner hfeature howner hb =>
      obtain ⟨owner', howner', hscenarios⟩ := hm.feature? howner
      refine ⟨_, .scenario (by rwa [hopened, Open.feature?_renumber]) howner' (hready.mpr hb),
        hsettings, ?_, by rw [hscenarios]; rfl, rfl, hstored⟩
      rw [Tree.content_addScenario, Tree.content_addScenario, hcontent, hopened,
        Open.adopted_renumber]
      exact (map_modify (fun f => by simp [Feature.renumber]) _ _).symm
  | step hopen hb =>
      refine ⟨_, .step ?_ (hready.mpr hb), hsettings, hcontent, hopened, rfl, hstored⟩
      rwa [takesSteps, Builder.context, hopened, Open.context_renumber]
  | binding hwaiting hglue =>
      exact ⟨_, .binding (hpending.trans hwaiting) (by rwa [hsettings]), hsettings, hcontent, hopened,
        rfl, hstored⟩
  | @hold _ b₁ item i background held hyields hopen =>
      obtain ⟨c₁, hyields', hm₁⟩ := hm.yields hyields
      have hopen' : c.opened = .inBackground i background (held.renumber front.length) :=
        hopened.trans (congrArg _ hopen)
      refine ⟨_, .hold hyields' hopen', hm₁.settings, hm₁.content, ?_, hm₁.pending, hm₁.stored⟩
      rw [Open.renumber, Item.onHeld_renumber, Item.onBackground_renumber]
  | @record _ b₁ item id hyields hopen hscenario =>
      obtain ⟨c₁, hyields', hm₁⟩ := hm.yields hyields
      have hopen' : c.opened = .inScenario id := hopened.trans (congrArg _ hopen)
      refine ⟨_, .record hyields' hopen' (hm.isSome_scenario? hscenario), hm₁.settings, ?_,
        hm₁.opened, hm₁.pending, hm₁.stored⟩
      rw [Tree.content_modifyScenario, Tree.content_modifyScenario, hcontent]
      refine (map_modify (fun f => ?_) _ _).symm
      rw [Feature.renumber, Feature.renumber]
      exact congrArg (fun ss => { f with scenarios := ss })
        (map_modify (item.onScenario_renumber front.length) f.scenarios id.scenario)
  | write => exact ⟨_, .write, hm⟩
  | outline => exact ⟨_, .outline, hm⟩
  | examples => exact ⟨_, .examples, hm⟩
  | endOfDocument => exact ⟨_, .endOfDocument, hsettings, hcontent, rfl, rfl, hstored⟩

/-- A run that is accepted is accepted with other attachments in front, and comes to the same. -/
theorem processAll (hm : Mirrors front b c) {es : List Event}
    (h : (b.processAll es).error = none) :
    (c.processAll es).error = none ∧
      Mirrors front (b.processAll es).builder (c.processAll es).builder := by
  induction es generalizing b c with
  | nil => exact ⟨rfl, hm⟩
  | cons e es ih =>
      rw [Builder.processAll, error_andThen] at h
      obtain ⟨c', haccepts, hm'⟩ := hm.accepts (accepts_process h.1)
      obtain ⟨hfirst, rfl⟩ := haccepts.process
      obtain ⟨hrest, hlast⟩ := ih hm' h.2
      rw [Builder.processAll, Builder.processAll, error_andThen, builder_andThen hfirst,
        builder_andThen h.1]
      exact ⟨⟨hfirst, hrest⟩, hlast⟩

end Mirrors

/-! ## Documents -/

/-- Events that a new builder with a new shelf accepts, the first of which announces a document, are
accepted by any builder with the same settings, unless it awaits a feature or, in strict ordering,
the result of a step. What they add to it is what they make of the new builder. -/
theorem processAll_isolated (b : Builder Shelf) {uri : String} {es : List Event}
    (h : ((new b.settings ({} : Shelf)).processAll (.documentStart uri :: es)).error = none) :
    let fresh := ((new b.settings ({} : Shelf)).processAll (.documentStart uri :: es)).builder
    let after := b.processAll (.documentStart uri :: es)
    let n := b.store.stored.length
    (after.error = none ↔
        b.context ≠ .uriSeen ∧ (b.settings.strict = true → b.pending = none)) ∧
      (after.error = none →
        after.builder.tree.content = b.tree.content ++ fresh.tree.content.map (·.renumber n) ∧
        after.builder.store.stored = b.store.stored ++ fresh.store.stored.map (·.renumber n) ∧
        after.builder.context = fresh.context ∧
        after.builder.opened = (fresh.opened.renumber n).shift b.tree.features.size ∧
        after.builder.pending = fresh.pending) := by
  intro fresh after n
  -- two steps: another store under the fresh builder, then another tree in front of it
  obtain ⟨herror, hm⟩ := (mirrors_new b.settings b.store).processAll h
  obtain ⟨hbehind, hbuilder⟩ := processAll_behind herror b.tree
  rw [behind_new] at hbehind hbuilder
  have hfirst : after.error = none → (b.process (.documentStart uri)).error = none :=
    fun hafter => (error_andThen.mp hafter).1
  refine ⟨⟨fun hafter => (error_documentStart_iff b uri).mp (hfirst hafter), fun hstart => ?_⟩,
    fun hafter => ?_⟩
  · have hprocess := (error_documentStart_iff b uri).mpr hstart
    exact (processAll_documentStart b hprocess es).2.mpr hbehind
  · rw [(processAll_documentStart b (hfirst hafter) es).1, hbuilder]
    refine ⟨?_, hm.stored, ?_, congrArg (Open.shift _) hm.opened, hm.pending⟩
    · rw [← hm.content]
      exact Tree.content_append _ _
    · rw [Builder.context, behind, Open.context_shift, hm.opened, Open.context_renumber]
      rfl

/-- A background is open that holds a hook and an attachment, and a bound step waits in it. Of all
this only the number of the attachment shows in the document that comes next. -/
theorem processAll_isolated_left_over :
    let b := (new { strict := false } ({} : Shelf)).feed
      [.feature { name := "a" }, .background {}, .before {} { outcome := .failed },
        .embedding "image/png" [1], .step { name := "s" }, .binding {}, .syntaxError default]
    let es : List Event :=
      [.documentStart "d", .feature { name := "b" }, .background {}, .embedding "text/plain" [2],
        .scenario { name := "c" }, .step { name := "t" }, .result { outcome := .passed },
        .embedding "image/png" [3]]
    ((new b.settings ({} : Shelf)).processAll es).error = none ∧
      b.context = .inBackground ∧ b.pending.isSome = true ∧
      (b.processAll es).error = none ∧
      (b.processAll es).builder.tree.content =
        [{ uri := none, header := { name := "a" } },
          { uri := some "d"
            header := { name := "b" }
            scenarios :=
              [{ header := { name := "c" }
                 background := some { keyword := "", name := "", line := none }
                 steps := [{ keyword := "", name := "t", line := none, location := none
                             verdict := { outcome := .passed } }]
                 attachments :=
                   [{ mimeType := "text/plain", filename := "embed_2.txt" },
                     { mimeType := "image/png", filename := "embed_3.png" }] }] }] := by
  intro b es
  have hfresh : ((new b.settings ({} : Shelf)).processAll es).error = none := by decide +kernel
  obtain ⟨haccepted, hmakes⟩ := processAll_isolated b hfresh
  have hafter : (b.processAll es).error = none := haccepted.mpr ⟨by decide +kernel, nofun⟩
  refine ⟨hfresh, by decide +kernel, by decide +kernel, hafter, ?_⟩
  obtain ⟨hcontent, -⟩ := hmakes hafter
  rw [hcontent]
  decide +kernel

end Builder

end ScenarioResults
