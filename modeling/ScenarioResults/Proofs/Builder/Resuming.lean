import ScenarioResults.Proofs.Builder.Step
import ScenarioResults.Proofs.Tree.Appended

/-!
# Going on from a tree and merging into it

Events are added to a tree in two ways: a new builder goes on from the tree, or a new builder builds
a tree of its own, which is tallied and merged. `continuing_agrees_merge` says that both come to the
same results, and to the same tree where the declared features have different bases.

## Shape of the proof

A builder that goes on from a tree is the builder that starts without one, with the features of the
tree in front and its positions shifted behind them (`Builder.behind`). What a builder accepts it
accepts behind a tree, with the same outcome (`Accepts.behind`, one case for each event), so a run
there is the run on its own, further behind. What is left is to compare appending with merging.
-/

namespace ScenarioResults

/-! ## Building behind another tree -/

/-- The same context with `n` features in front. -/
def Open.shift (n : ℕ) : Open → Open
  | idle => idle
  | uriSeen uri => uriSeen uri
  | inFeature i => inFeature (n + i)
  | inBackground i background held => inBackground (n + i) background held
  | inScenario id => inScenario ⟨n + id.feature, id.scenario⟩

namespace Open

variable (n : ℕ) (o : Open)

@[simp]
theorem shift_inFeature (i : ℕ) : (inFeature i).shift n = inFeature (n + i) := rfl

@[simp]
theorem shift_inScenario (id : ScenarioId) :
    (inScenario id).shift n = inScenario ⟨n + id.feature, id.scenario⟩ := rfl

/-- Moving what is open keeps the context. -/
@[simp]
theorem context_shift : (o.shift n).context = o.context := by cases o <;> rfl

/-- The open feature is moved by as many places. -/
@[simp]
theorem feature?_shift : (o.shift n).feature? = o.feature?.map (n + ·) := by cases o <;> rfl

/-- The announced document is kept. -/
@[simp]
theorem uri?_shift : (o.shift n).uri? = o.uri? := by cases o <;> rfl

/-- The name of the open background is kept. -/
@[simp]
theorem background?_shift : (o.shift n).background? = o.background? := by cases o <;> rfl

/-- The scenario that adopts what is open does not depend on where that is. -/
@[simp]
theorem adopted_shift (header : Header) : (o.shift n).adopted header = o.adopted header := by
  cases o <;> rfl

end Open

namespace Builder

variable {σ : Type} {b b' : Builder σ} {e : Event}

/-- The same builder with the features of another tree in front of its own. -/
def behind (t : Tree) (b : Builder σ) : Builder σ :=
  { b with tree := t.append b.tree, opened := b.opened.shift t.features.size }

/-- A new builder behind a tree is a new builder that goes on from it. -/
theorem behind_new (t : Tree) (settings : Settings) (store : σ) :
    (new settings store).behind t = (new settings store).continuing t := by
  simp [behind, new, continuing, Tree.append_empty, Open.shift]

section Process

variable [AttachmentStore σ]

/-- What an event yields does not depend on the tree in front. -/
theorem Yields.behind {item : Item} (h : Yields b e item b') (t : Tree) :
    Yields (b.behind t) e item (b'.behind t) := by
  cases h with
  | result hpending => exact .result hpending
  | before => exact .before
  | after => exact .after
  | embedding hoffer => exact .embedding hoffer

/-- What a builder accepts it accepts behind another tree, and what it does there is the same. -/
theorem Accepts.behind (h : Accepts b e b') (t : Tree) : Accepts (b.behind t) e (b'.behind t) := by
  cases h with
  | documentStart hopen hready => exact .documentStart (by simpa [Builder.behind] using hopen) hready
  | @feature header hready =>
      have hbehind : Accepts (b.behind t) (.feature header) _ := .feature hready
      simpa [Builder.behind, Tree.append_addFeature, Tree.size_append] using hbehind
  | background hopen hfeature hready =>
      exact .background (by simpa [Builder.behind] using hopen)
        (by simp [Builder.behind, hfeature]) hready
  | @scenario header i owner hfeature howner hready =>
      have hfeature' : (b.behind t).opened.feature? = some (t.features.size + i) := by
        simp [Builder.behind, hfeature]
      -- every position that the event reads moves by as many features as `t` has
      have howner' : (b.behind t).tree.feature? (t.features.size + i) = some owner :=
        (Tree.feature?_append_right t b.tree i).trans howner
      have hbehind : Accepts (b.behind t) (.scenario header) _ := .scenario hfeature' howner' hready
      simpa [Builder.behind, Tree.append_addScenario] using hbehind
  | step hopen hready =>
      exact .step (by simpa [Builder.behind, Builder.takesSteps, Builder.context] using hopen) hready
  | binding hpending hglue => exact .binding hpending hglue
  | hold hyields hopen => exact .hold (hyields.behind t) (by rw [Builder.behind, hopen]; rfl)
  | @record _ b₁ item id hyields hopen hscenario =>
      have hopen' : (b.behind t).opened = .inScenario ⟨t.features.size + id.feature, id.scenario⟩ := by
        rw [Builder.behind, hopen, Open.shift]
      have hbehind := Accepts.record (hyields.behind t) hopen'
        (by rwa [← Tree.scenario?_append_right t] at hscenario)
      simpa [Builder.behind, Tree.append_modifyScenario, hyields.same.2] using hbehind
  | write => exact .write
  | outline => exact .outline
  | examples => exact .examples
  | endOfDocument => exact .endOfDocument

/-- A run that is accepted is accepted behind another tree, and comes to the same there. -/
theorem processAll_behind {es : List Event} (h : (b.processAll es).error = none) (t : Tree) :
    ((b.behind t).processAll es).error = none ∧
      ((b.behind t).processAll es).builder = (b.processAll es).builder.behind t := by
  induction es generalizing b with
  | nil => exact ⟨rfl, rfl⟩
  | cons e es ih =>
      rw [processAll, error_andThen] at h
      obtain ⟨hfirst, hbuilder⟩ := ((accepts_process h.1).behind t).process
      obtain ⟨hrest, hlast⟩ := ih h.2
      rw [processAll, error_andThen, builder_andThen hfirst, hbuilder, processAll,
        builder_andThen h.1]
      exact ⟨⟨hfirst, hrest⟩, hlast⟩

/-- An event that yields an item behind a tree yields it without the tree. -/
theorem Yields.of_behind {t : Tree} {item : Item} {c : Builder σ}
    (h : Yields (b.behind t) e item c) : ∃ b', Yields b e item b' := by
  cases h with
  | result hpending => exact ⟨_, .result hpending⟩
  | before => exact ⟨_, .before⟩
  | after => exact ⟨_, .after⟩
  | embedding hoffer => exact ⟨_, .embedding hoffer⟩

/-- What a builder accepts behind another tree it accepts on its own. -/
theorem Accepts.of_behind {t : Tree} {c : Builder σ} (h : Accepts (b.behind t) e c) :
    ∃ b', Accepts b e b' := by
  cases h with
  | documentStart hopen hready =>
      exact ⟨_, .documentStart (by simpa [Builder.behind] using hopen) hready⟩
  | feature hready => exact ⟨_, .feature hready⟩
  | background hopen hfeature hready =>
      obtain ⟨i, hi, -⟩ :=
        Option.map_eq_some_iff.mp ((b.opened.feature?_shift _).symm.trans hfeature)
      exact ⟨_, .background (by simpa [Builder.behind] using hopen) hi hready⟩
  | scenario hfeature howner hready =>
      obtain ⟨i, hi, rfl⟩ :=
        Option.map_eq_some_iff.mp ((b.opened.feature?_shift _).symm.trans hfeature)
      exact ⟨_, .scenario hi ((Tree.feature?_append_right t b.tree i).symm.trans howner) hready⟩
  | step hopen hready =>
      exact ⟨_, .step (by simpa [Builder.behind, Builder.takesSteps, Builder.context] using hopen)
        hready⟩
  | binding hpending hglue => exact ⟨_, .binding hpending hglue⟩
  | hold hyields hopen =>
      obtain ⟨b', hyields⟩ := hyields.of_behind
      cases hown : b.opened <;> simp [Builder.behind, hown, Open.shift] at hopen
      exact ⟨_, .hold hyields hown⟩
  | record hyields hopen hscenario =>
      obtain ⟨b', hyields⟩ := hyields.of_behind
      cases hown : b.opened <;> simp [Builder.behind, hown, Open.shift] at hopen
      subst hopen
      exact ⟨_, .record hyields hown ((Tree.scenario?_append_right t b.tree _) ▸ hscenario)⟩
  | write => exact ⟨_, .write⟩
  | outline => exact ⟨_, .outline⟩
  | examples => exact ⟨_, .examples⟩
  | endOfDocument => exact ⟨_, .endOfDocument⟩

/-- A run that is accepted behind another tree is accepted on its own. -/
theorem processAll_of_behind {t : Tree} {es : List Event}
    (h : ((b.behind t).processAll es).error = none) : (b.processAll es).error = none := by
  induction es generalizing b with
  | nil => rfl
  | cons e es ih =>
      rw [processAll, error_andThen] at h
      obtain ⟨b', haccepts⟩ := (accepts_process h.1).of_behind
      obtain ⟨hfirst, hbuilder⟩ := haccepts.process
      rw [(haccepts.behind t).process.2] at h
      rw [processAll, error_andThen, hbuilder]
      exact ⟨hfirst, ih h.2⟩

/-- A builder gives no names to features. -/
theorem Accepts.nameless (h : Accepts b e b') (hb : b.tree.Nameless) : b'.tree.Nameless := by
  cases h with
  | documentStart | background | step | binding | write | outline | examples | endOfDocument =>
      exact hb
  | feature => exact hb.addFeature _ _
  | scenario => exact hb.modify _ _
  | hold hyields => exact hyields.same.2 ▸ hb
  | record => exact hb.modify _ _

/-- No event assigns a name. -/
theorem nameless_processAll {es : List Event} (h : (b.processAll es).error = none)
    (hb : b.tree.Nameless) : (b.processAll es).builder.tree.Nameless := by
  induction es generalizing b with
  | nil => exact hb
  | cons e es ih =>
      rw [processAll, error_andThen] at h
      rw [processAll, builder_andThen h.1]
      exact ih h.2 ((accepts_process h.1).nameless hb)

/-! ## Both ways -/

/-- Events that a new builder accepts it accepts as well when it goes on from a settled tree, and
what it then finishes is there exactly when the tree it builds alone can be merged. The results agree
with those of the merge, and the trees are the same where the features have different bases. -/
theorem continuing_agrees_merge {t : Tree} (ht : t.Settled) (settings : Settings) (store : σ)
    {es : List Event} (h : ((new settings store).processAll es).error = none) :
    let fresh := ((new settings store).processAll es).builder
    let resumed := ((new settings store).continuing t).processAll es
    resumed.error = none ∧ resumed.builder.store = fresh.store ∧
      ((∃ r, resumed.builder.finish = .done r) ↔
        ∃ added, fresh.finish = .done added ∧ (t.merge added).summary.isSome) ∧
      ∀ r added, resumed.builder.finish = .done r → fresh.finish = .done added →
        r.content = t.content ++ fresh.tree.content ∧ t.Agrees r (t.merge added).tree ∧
          ((fresh.tree.content.map fun f => Name.safe f.header.declared).Nodup →
            r = (t.merge added).tree) := by
  intro fresh resumed
  -- the run on `t` is the fresh run with its whole tree behind `t`, so that only the two trees are
  -- left to compare: one tallied at once, one adopted and tallied
  obtain ⟨herror, hbuilder⟩ := processAll_behind h t
  rw [behind_new] at herror hbuilder
  have hfinish : resumed.builder.finish = (t.append fresh.tree).tally :=
    congrArg Builder.finish hbuilder
  have hcompletes : (∃ r, resumed.builder.finish = .done r) ↔
      ∃ added, fresh.finish = .done added ∧ (t.merge added).summary.isSome := by
    rw [hfinish]
    exact Tree.exists_tally_append_iff
  have hstore : resumed.builder.store = fresh.store :=
    calc resumed.builder.store = (fresh.behind t).store := congrArg Builder.store hbuilder
      _ = fresh.store := rfl
  refine ⟨herror, hstore, hcompletes, fun r added hr hadded => ?_⟩
  obtain ⟨added', hadded', hsome⟩ := hcompletes.mp ⟨r, hr⟩
  obtain rfl : added = added' := Attempt.done.inj (hadded.symm.trans hadded')
  obtain ⟨s, hs⟩ := Option.isSome_iff_exists.mp hsome
  rw [hfinish] at hr
  have hsound : fresh.tree.Sound := ((Tree.reachable_new settings store).processAll es).sound
  have hnameless : fresh.tree.Nameless := nameless_processAll h Tree.nameless_empty
  refine ⟨?_, Tree.agrees_append_merge ht hsound hr hadded hs, fun hnodup => ?_⟩
  · rw [Tree.content_of_tally hr, Tree.content_append]
  · refine Tree.eq_merge_of_nodup ht hnameless ?_ hr hadded hs
    rwa [Tree.content, List.map_map] at hnodup

/-- A feature with the name of one that is there and an attachment that waits in a background. -/
theorem continuing_agrees_merge_name_taken :
    let start := Builder.new {} ({} : Shelf)
    let t := (start.processAll [.feature { name := "a" }]).builder.tree.tally.value
    let es : List Event := [.feature { name := "a" }, .background {}, .embedding "image/png" [],
      .scenario { name := "s" }, .endOfDocument, .feature { name := "b" }]
    let fresh := (start.processAll es).builder
    let resumed := (start.continuing t).processAll es
    t.Settled ∧ (start.processAll es).error = none ∧
      resumed.builder.finish = .done (t.merge fresh.finish.value).tree ∧
      [0, 1, 2].map resumed.builder.finish.value.featureName? = [some "a", some "a_2", some "b"] := by
  intro start t es fresh resumed
  have ht : t.Settled :=
    .tally ((Tree.reachable_new {} ({} : Shelf)).processAll _) (by decide +kernel)
  have herror : (start.processAll es).error = none := by decide +kernel
  obtain ⟨-, -, -, hagrees⟩ := continuing_agrees_merge ht {} ({} : Shelf) herror
  have hresumed : resumed.builder.finish = .done resumed.builder.finish.value := by decide +kernel
  have hfresh : fresh.finish = .done fresh.finish.value := by decide +kernel
  obtain ⟨-, -, heq⟩ := hagrees _ _ hresumed hfresh
  refine ⟨ht, herror, hresumed.trans (congrArg Attempt.done (heq ?_)), ?_⟩ <;> decide +kernel

/-- The bases have to differ: a name that is claimed twice behind the tree is claimed once as `a` and
once as `a_2` where the tree is merged. -/
example :
    let start := Builder.new {} ({} : Shelf)
    let t := (start.processAll [.feature { name := "a" }]).builder.tree.tally.value
    let es : List Event := [.feature { name := "a" }, .feature { name := "a" }]
    ((start.continuing t).processAll es).builder.finish.value.featureName? 2 = some "a_3" ∧
      (t.merge (start.processAll es).builder.finish.value).tree.featureName? 2 = some "a_2_2" := by
  decide +kernel

end Process

end Builder

end ScenarioResults
