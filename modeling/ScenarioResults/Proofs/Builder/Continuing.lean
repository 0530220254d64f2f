import ScenarioResults.Proofs.Builder.Reachable

/-!
# Going on from another tree

A builder knows the open feature by its position. `continuing` gives it another tree and leaves the
open context as it is, so the position may now be that of a feature of the new tree.
`prefix_feed_continuing_iff` says that this is the only way in which events can reach into the tree
that a builder goes on from: unless the open position lies in it, whatever the events add comes
behind its features.

## Shape of the proof

An event changes nothing but the open feature and what comes behind the last one
(`content_process_of_closed`), and it opens no feature that was there before (`Closed.process`).
Both carry over to a run of events, accepted or not.
-/

namespace ScenarioResults.Builder

variable {σ : Type} {b b' : Builder σ} {e : Event} {j : ℕ}

/-- The position is that of a feature which is not open. -/
structure Closed (b : Builder σ) (j : ℕ) : Prop where
  lt : j < b.tree.content.length
  notOpen : b.opened.feature? ≠ some j

section Process

variable [AttachmentStore σ]

/-- Process events in order, going on after one that is refused. -/
def feed (b : Builder σ) (events : List Event) : Builder σ :=
  events.foldl (fun b e => (b.process e).builder) b

/-! ## One event -/

/-- An accepted event leaves a closed feature as it is. -/
theorem Accepts.content_of_closed (h : Accepts b e b') (hj : b.Closed j) :
    b'.tree.content[j]? = b.tree.content[j]? := by
  cases h with
  | documentStart | background | step | binding | write | outline | examples | endOfDocument => rfl
  | feature => rw [Tree.content_addFeature, List.getElem?_append_left hj.lt]
  | @scenario header i owner hfeature _ _ =>
      have hij : i ≠ j := by
        rintro rfl
        exact hj.notOpen hfeature
      rw [Tree.content_addScenario, List.getElem?_modify_ne _ _ hij]
  | hold hyields => rw [hyields.same.2]
  | @record _ _ item id _ hopen _ =>
      have hij : id.feature ≠ j := by
        rintro rfl
        exact hj.notOpen (by rw [hopen]; rfl)
      rw [Tree.content_modifyScenario, List.getElem?_modify_ne _ _ hij]

/-- An accepted event opens no feature that was closed before. -/
theorem Accepts.feature?_of_closed (h : Accepts b e b') (hj : b.Closed j) :
    b'.opened.feature? ≠ some j := by
  cases h with
  | documentStart | endOfDocument => simp [Open.feature?]
  | feature =>
      have hne : b.tree.features.size ≠ j := by
        have hlt := hj.lt
        rw [Tree.length_content] at hlt
        omega
      simpa [Open.feature?] using hne
  | background _ hfeature | scenario hfeature =>
      have hopen := hj.notOpen
      rw [hfeature] at hopen
      exact hopen
  | hold hyields hopen =>
      have hclosed := hj.notOpen
      rw [hopen] at hclosed
      exact hclosed
  | record hyields =>
      have hsame := hyields.same.1
      exact hsame ▸ hj.notOpen
  | step | binding | write | outline | examples => exact hj.notOpen

/-- An event leaves a closed feature as it is, whether it is accepted or not. -/
theorem content_process_of_closed (hj : b.Closed j) (e : Event) :
    (b.process e).builder.tree.content[j]? = b.tree.content[j]? := by
  by_cases h : (b.process e).error = none
  · exact (accepts_process h).content_of_closed hj
  · rw [(spares_process_of_refused h).tree]

/-- A closed feature stays closed. -/
theorem Closed.process (hj : b.Closed j) (e : Event) : (b.process e).builder.Closed j := by
  refine ⟨?_, ?_⟩
  · have hget := content_process_of_closed hj e
    rw [List.getElem?_eq_getElem hj.lt] at hget
    exact (List.getElem?_eq_some_iff.mp hget).1
  · by_cases h : (b.process e).error = none
    · exact (accepts_process h).feature?_of_closed hj
    · rcases (spares_process_of_refused h).opened with hsame | ⟨hidle, -⟩
      · rw [hsame]
        exact hj.notOpen
      · rw [hidle]
        simp [Open.feature?]

/-! ## A run of events -/

/-- A feature that is not open keeps its content through any run. -/
theorem content_feed_of_closed (hj : b.Closed j) (events : List Event) :
    (b.feed events).tree.content[j]? = b.tree.content[j]? := by
  induction events generalizing b with
  | nil => rfl
  | cons e events ih => exact (ih (hj.process e)).trans (content_process_of_closed hj e)

/-- Where no feature of the tree is open, the tree's content stays in front of all that follows. -/
theorem prefix_feed (h : ∀ j < b.tree.content.length, b.opened.feature? ≠ some j)
    (events : List Event) : b.tree.content <+: (b.feed events).tree.content := by
  rw [List.prefix_iff_getElem?]
  intro j hj
  rw [content_feed_of_closed ⟨hj, h j hj⟩ events, List.getElem?_eq_getElem hj]

/-! ## Reaching into the tree -/

/-- Two scenarios are enough for one to land in the open feature: where a step still waits in strict
ordering, the first is refused and takes the step with it. -/
theorem exists_feed_scenario {i : ℕ} {owner : FeatureEntry}
    (hfeature : b.opened.feature? = some i) (howner : b.tree.feature? i = some owner)
    (header : Header) :
    ∃ events, (b.feed events).tree = b.tree.addScenario i (b.opened.adopted header) := by
  -- a builder that is not ready refuses the first scenario and drops the awaiting step, so that the
  -- second one is accepted
  by_cases hready : b.Ready
  · refine ⟨[.scenario header], ?_⟩
    rw [feed, List.foldl_cons, List.foldl_nil,
      (Accepts.scenario hfeature howner hready).process.2]
  · refine ⟨[.scenario header, .scenario header], ?_⟩
    have hrefused : (b.dropPending .scenario).error ≠ none :=
      fun h => hready ((error_dropPending b .scenario).mp h)
    have hfirst : (b.process (.scenario header)).builder = { b with pending := none } := by
      rw [builder_process, react, scenario, hfeature]
      dsimp only
      rw [builder_andThen_of_refused hrefused, builder_dropPending]
    have hready' : ({ b with pending := none } : Builder σ).Ready := fun _ => rfl
    rw [feed, List.foldl_cons, List.foldl_cons, List.foldl_nil, hfirst,
      (Accepts.scenario (b := { b with pending := none }) hfeature howner hready').process.2]

/-- Whatever follows leaves the features of a tree that a builder goes on from as they are, exactly
when the open feature is none of them by its position. -/
theorem prefix_feed_continuing_iff (b : Builder σ) (t : Tree) :
    (∀ events, t.content <+: ((b.continuing t).feed events).tree.content) ↔
      ∀ i, b.opened.feature? = some i → t.features.size ≤ i := by
  constructor
  · intro h i hi
    by_contra hlt
    have hsome : (t.feature? i).isSome := by
      rw [Tree.isSome_feature?, Tree.length_content]
      omega
    obtain ⟨owner, howner⟩ := Option.isSome_iff_exists.mp hsome
    obtain ⟨events, htree⟩ := exists_feed_scenario (b := b.continuing t) hi howner {}
    -- as many features as before, but one of them has a scenario more
    have hprefix := h events
    rw [htree, Tree.content_addScenario] at hprefix
    have heq := hprefix.eq_of_length (List.length_modify _ _ _).symm
    have hget := congrArg (·[i]?) heq
    have howner' : t.content[i]? = some owner.content := by
      rw [Tree.content_getElem?, howner]
      rfl
    simp only [continuing, howner', List.getElem?_modify_eq, Option.map_eq_map, Option.map_some,
      Option.some.injEq] at hget
    have hscenarios := congrArg Feature.scenarios hget
    simp at hscenarios
  · intro h events
    refine prefix_feed (b := b.continuing t) (fun j hj hopen => ?_) events
    have hle := h j hopen
    rw [Tree.length_content] at hj
    exact absurd hj (Nat.not_lt.mpr hle)

/-- A feature is open when the builder goes on from a tree that has a feature at the same position:
the next scenario joins the feature that was there before. -/
theorem continued_feature_joined :
    let b := ((Builder.new {} ({} : Shelf)).process (.feature { name := "new" })).builder
    let t := ((Builder.new {} ({} : Shelf)).processAll
      [.feature { name := "old" }, .scenario { name := "s" }, .endOfDocument]).builder.finish.value
    b.Reachable ∧ ((b.continuing t).process (.scenario { name := "late" })).error = none ∧
      ¬ t.content <+: ((b.continuing t).feed [.scenario { name := "late" }]).tree.content := by
  refine ⟨.process _ (.new _ _), ?_, ?_⟩ <;> decide +kernel

end Process

end ScenarioResults.Builder
