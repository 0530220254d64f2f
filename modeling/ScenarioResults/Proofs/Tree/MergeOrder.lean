import ScenarioResults.Proofs.Tree.Frame

/-!
# The order of merges

Trees may be merged in any order, and some of them into each other first. A `MergePlan` says how.
Whatever the plan, the features that are merged into the empty tree end up as their own tally leaves
them, from left to right (`MergePlan.values_of_run`), so a plan that merges the same trees in another
order comes to the same features in another order. Counters, the groups by tag and even whether all
merges complete do not depend on the order (`MergePlan.run_of_perm`). Names of features do, but they
are different from each other under each plan.

## Shape of the proof

A feature that was tallied is not changed by a later tally, so it does not matter through how many
merges it goes; this is one induction over the plan. What is derived for the whole tree is a sum over
its features, or over those scenarios of its features to which a tag applies
(`Tree.mem_figures_iff`), and sums do not depend on the order.
-/

namespace ScenarioResults

open Duration (totalNanos longest)

/-! ## Groups by tag as figures -/

/-- The scenarios of a feature to which a tag applies. -/
def FeatureEntry.tagged (f : FeatureEntry) (name : String) : List ScenarioEntry :=
  f.scenarios.values.filter fun e => name ∈ effectiveTags f.header e.content.header

/-- The scenarios of a tree to which a tag applies. -/
def Tree.tagged (t : Tree) (name : String) : List ScenarioEntry :=
  t.features.values.flatMap (·.tagged name)

/-- Name, counters and number of members. -/
def TagGroup.figures (g : TagGroup) : String × Counts × ℕ := (g.name, g.counts, g.members.length)

namespace Tree

variable {t t' u u' : Tree} {name : String}

/-- The scenarios that a group by tag collects, without their positions. -/
theorem map_snd_tagged (t : Tree) (name : String) :
    (t.scenarios.filter fun x => name ∈ t.tagsOf x.1 x.2).map Prod.snd = t.tagged name := by
  have hfeature : ∀ x ∈ t.features.values.zipIdx,
      ((featureScenarios x.1 x.2).filter fun y => name ∈ t.tagsOf y.1 y.2).map Prod.snd =
        x.1.tagged name := by
    rintro ⟨f, i⟩ hf
    have hget : t.feature? i = some f := by
      rw [feature?, Name.Family.get?_eq]
      exact List.mem_zipIdx_iff_getElem?.mp hf
    have htags : ∀ y : ScenarioEntry × ℕ, t.tagsOf ⟨i, y.2⟩ y.1 =
        effectiveTags f.header y.1.content.header := fun y => by rw [tagsOf, hget]; rfl
    rw [featureScenarios, List.filter_map, List.map_map, FeatureEntry.tagged,
      ← List.zipIdx_map_fst 0 f.scenarios.values, List.filter_map, List.zipIdx_map_fst]
    simp only [Function.comp_def, htags]
  rw [scenarios, tagged, List.filter_flatMap, List.map_flatMap, List.flatMap_congr hfeature,
    ← List.zipIdx_map_fst 0 t.features.values, List.flatMap_map, List.zipIdx_map_fst]

/-- The figures of the groups by tag are those of the scenarios to which the tags apply. -/
theorem mem_figures_iff (h : t.tally = .done t') {c : Counts} {k : ℕ} :
    (name, c, k) ∈ t'.summary.tags.map TagGroup.figures ↔ t'.tagged name ≠ [] ∧
      c.IsSum ((t'.tagged name).map ScenarioEntry.counts) ∧ k = (t'.tagged name).length := by
  obtain ⟨-, -, htags, -⟩ := summary_of_tally h
  have hgroups := groups_tagGroups htags
  have hcollected : ∀ g ∈ t'.summary.tags, g.name = name →
      g.counts.IsSum ((t'.tagged name).map ScenarioEntry.counts) ∧
        g.members.length = (t'.tagged name).length := by
    rintro g hg rfl
    have hcollects := hgroups.collects g hg
    rw [← map_snd_tagged, List.map_map, List.length_map, hcollects.members, List.length_map]
    exact ⟨hcollects.counts, rfl⟩
  have hnamed := hgroups.named name
  rw [ne_eq, ← List.map_eq_nil_iff (f := Prod.snd), map_snd_tagged] at hnamed
  rw [List.mem_map]
  constructor
  · rintro ⟨g, hg, hfigures⟩
    obtain ⟨hname, rfl, rfl⟩ : g.name = name ∧ g.counts = c ∧ g.members.length = k := by
      simpa [TagGroup.figures] using hfigures
    exact ⟨hnamed.mp ⟨g, hg, hname⟩, hcollected g hg hname⟩
  · rintro ⟨hsome, hsum, rfl⟩
    obtain ⟨g, hg, hname⟩ := hnamed.mpr hsome
    obtain ⟨hcounts, hlength⟩ := hcollected g hg hname
    exact ⟨g, hg, by rw [TagGroup.figures, hname, hcounts.unique hsum, hlength]⟩

/-- The figures of the groups ascend by name. -/
theorem pairwise_figures (h : t.tally = .done t') :
    (t'.summary.tags.map TagGroup.figures).Pairwise fun a b => a.1 < b.1 :=
  List.pairwise_map.mpr (ascending_tagGroups (summary_of_tally h).2.2.1)

/-- No figures occur twice. -/
theorem nodup_figures (h : t.tally = .done t') : (t'.summary.tags.map TagGroup.figures).Nodup :=
  (pairwise_figures h).imp fun {a b} hlt heq => by
    subst heq
    exact String.lt_irrefl a.1 hlt

/-- Trees with the same features in any order have the same groups by tag, up to the positions of
the members. -/
theorem figures_of_perm (ht : t.tally = .done t') (hu : u.tally = .done u')
    (h : t'.features.values.Perm u'.features.values) :
    t'.summary.tags.map TagGroup.figures = u'.summary.tags.map TagGroup.figures := by
  have hperm : (t'.summary.tags.map TagGroup.figures).Perm
      (u'.summary.tags.map TagGroup.figures) := by
    rw [List.perm_ext_iff_of_nodup (nodup_figures ht) (nodup_figures hu)]
    rintro ⟨name, c, k⟩
    have hsame : ∀ {xs ys : List ScenarioEntry}, xs.Perm ys →
        xs ≠ [] ∧ c.IsSum (xs.map ScenarioEntry.counts) ∧ k = xs.length →
          ys ≠ [] ∧ c.IsSum (ys.map ScenarioEntry.counts) ∧ k = ys.length := by
      rintro xs ys hxs ⟨hsome, hsum, rfl⟩
      refine ⟨?_, hsum.perm (hxs.map _), hxs.length_eq⟩
      rintro rfl
      exact hsome hxs.eq_nil
    have htagged : (t'.tagged name).Perm (u'.tagged name) := h.flatMap fun _ _ => .refl _
    rw [mem_figures_iff ht, mem_figures_iff hu]
    exact ⟨hsame htagged, hsame htagged.symm⟩
  -- both lists ascend by name, so a permutation of one is the other
  exact hperm.eq_of_pairwise (fun a b _ _ hab hba => absurd hba (String.lt_asymm hab))
    (pairwise_figures ht) (pairwise_figures hu)

end Tree

/-! ## Plans -/

/-- A way to merge trees: which ones, in which order, and into what. A plan starts with nothing,
takes a tree as it is, or merges what its second part makes into what its first part makes. -/
inductive MergePlan where
  | empty
  | tree (t : Tree)
  | merge (base incoming : MergePlan)

namespace MergePlan

/-- The trees to merge, from left to right. -/
def trees : MergePlan → List Tree
  | empty => []
  | tree t => [t]
  | merge base incoming => base.trees ++ incoming.trees

/-- The tree that is made, if all merges complete. -/
def run? : MergePlan → Option Tree
  | empty => some {}
  | tree t => some t
  | merge base incoming => do
    let base ← base.run?
    let incoming ← incoming.run?
    (base.merge incoming).summary.map fun _ => (base.merge incoming).tree

/-- Everything is merged into the empty tree, in one piece or in several. -/
def FromEmpty : MergePlan → Prop
  | empty => True
  | tree _ => False
  | merge base _ => base.FromEmpty

variable {p q : MergePlan} {t u : Tree}

/-- A plan that merges completes when both parts and the merge do. -/
theorem run?_merge_eq_some_iff : (merge p q).run? = some t ↔ ∃ base incoming s,
    p.run? = some base ∧ q.run? = some incoming ∧ (base.merge incoming).summary = some s ∧
      (base.merge incoming).tree = t := by
  simp only [run?, Option.bind_eq_bind, Option.bind_eq_some_iff, Option.map_eq_some_iff]
  constructor
  · rintro ⟨base, hbase, incoming, hin, s, hs, htree⟩
    exact ⟨base, incoming, s, hbase, hin, hs, htree⟩
  · rintro ⟨base, incoming, s, hbase, hin, hs, htree⟩
    exact ⟨base, hbase, incoming, hin, s, hs, htree⟩

/-- Plans for reachable trees make reachable trees. -/
theorem reachable_of_run (h : p.run? = some t) (htrees : ∀ v ∈ p.trees, v.Reachable) :
    t.Reachable := by
  induction p generalizing t with
  | empty =>
      obtain rfl := Option.some.inj h
      exact Tree.Evolves.refl {}
  | tree v =>
      obtain rfl := Option.some.inj h
      exact htrees v (List.mem_singleton_self v)
  | merge p q ihp ihq =>
      obtain ⟨base, incoming, s, hbase, hin, -, rfl⟩ := run?_merge_eq_some_iff.mp h
      exact .merge (ihp hbase fun v hv => htrees v (List.mem_append_left _ hv))
        (ihq hin fun v hv => htrees v (List.mem_append_right _ hv))

/-- Whatever merges they go through, features end up as their own tally leaves them. -/
theorem map_tally_of_run (h : p.run? = some t) :
    t.features.values.map (fun f => f.tally.value) =
      p.trees.flatMap fun v => v.features.values.map fun f => f.tally.value := by
  induction p generalizing t with
  | empty =>
      obtain rfl := Option.some.inj h
      rfl
  | tree v =>
      obtain rfl := Option.some.inj h
      rw [trees, List.flatMap_singleton]
  -- the incoming tree is tallied when it is adopted, and a second tally changes nothing
  | merge p q ihp ihq =>
      obtain ⟨base, incoming, s, hbase, hin, hs, rfl⟩ := run?_merge_eq_some_iff.mp h
      obtain ⟨tallied, htally, hmerged, -⟩ := Tree.summary_merge_eq_some_iff.mp hs
      rw [Tree.map_tally_of_done hmerged, Tree.values_merge hs htally, Tree.values_of_tally htally,
        ihp hbase, ihq hin, trees, List.flatMap_append]

/-- Nothing that the trees record is lost or changed. -/
theorem content_of_run (h : p.run? = some t) : t.content = p.trees.flatMap Tree.content := by
  have hcontent := congrArg (List.map FeatureEntry.content) (map_tally_of_run h)
  simp only [List.map_map, List.map_flatMap, Function.comp_def, FeatureEntry.content_tally]
    at hcontent
  exact hcontent

/-- The durations of all trees are there, from left to right. -/
theorem durations_of_run (h : p.run? = some t) :
    t.durations = p.trees.flatMap Tree.durations := by
  rw [Tree.durations, content_of_run h, List.flatMap_assoc]
  rfl

/-- All merges complete when what the trees record fits. -/
theorem exists_run (h : totalNanos (p.trees.flatMap Tree.durations) ≤ longest) :
    ∃ t, p.run? = some t := by
  induction p with
  | empty => exact ⟨{}, rfl⟩
  | tree t => exact ⟨t, rfl⟩
  | merge p q ihp ihq =>
      rw [trees, List.flatMap_append, Duration.totalNanos_append] at h
      obtain ⟨base, hbase⟩ := ihp (Nat.le_trans (Nat.le_add_right _ _) h)
      obtain ⟨incoming, hin⟩ := ihq (Nat.le_trans (Nat.le_add_left _ _) h)
      rw [← durations_of_run hbase, ← durations_of_run hin] at h
      obtain ⟨s, hs⟩ := Option.isSome_iff_exists.mp (Tree.isSome_summary_merge_iff.mpr h)
      exact ⟨_, run?_merge_eq_some_iff.mpr ⟨base, incoming, s, hbase, hin, hs, rfl⟩⟩

/-- What is merged into the empty tree is tallied in the end. -/
theorem tally_of_run (hp : p.FromEmpty) (h : p.run? = some t) : t.tally = .done t := by
  cases p with
  | empty =>
      obtain rfl := Option.some.inj h
      rfl
  | tree v => exact hp.elim
  | merge p q =>
      obtain ⟨base, incoming, s, -, -, hs, rfl⟩ := run?_merge_eq_some_iff.mp h
      obtain ⟨tallied, -, hmerged, -⟩ := Tree.summary_merge_eq_some_iff.mp hs
      exact Tree.tally_of_done hmerged

/-- What is merged into the empty tree are the tallied features, from left to right. -/
theorem values_of_run (hp : p.FromEmpty) (h : p.run? = some t) :
    t.features.values = p.trees.flatMap fun v => v.features.values.map fun f => f.tally.value := by
  rw [← map_tally_of_run h]
  exact Tree.values_of_tally (tally_of_run hp h)

/-- Whether all merges complete does not depend on the order. -/
theorem exists_run_of_perm (hp : p.FromEmpty) (hperm : p.trees.Perm q.trees)
    (h : p.run? = some t) : ∃ u, q.run? = some u := by
  have hfits := Tree.exists_tally_iff.mp ⟨t, tally_of_run hp h⟩
  rw [durations_of_run h] at hfits
  refine exists_run (Nat.le_trans (Nat.le_of_eq ?_) hfits)
  have hdurations := hperm.flatMap_right Tree.durations
  rw [Duration.totalNanos_eq_sum, Duration.totalNanos_eq_sum]
  exact (hdurations.map Duration.nanos).sum_eq.symm

/-- What is merged into the empty tree has a name of its own for each feature. -/
theorem namedApart_of_run (hp : p.FromEmpty) (htrees : ∀ v ∈ p.trees, v.Reachable)
    (h : p.run? = some t) : t.NamedApart :=
  have htallied : t.Tallied :=
    Tree.tallied_of_done (reachable_of_run h htrees).sound (tally_of_run hp h)
  htallied.namedApart

/-- Merging the same trees into the empty one, in another order and in other groups, completes as
well, and comes to the same counters, to groups by tag with the same figures and to the same
features, with content, counters and names of scenarios; they are in the same order when the trees
are. The names of the features are different from each other either way. -/
theorem run_of_perm (hp : p.FromEmpty) (hq : q.FromEmpty) (htrees : ∀ v ∈ p.trees, v.Reachable)
    (hperm : p.trees.Perm q.trees) (ht : p.run? = some t) :
    ∃ u, q.run? = some u ∧ t.summary.counts = u.summary.counts ∧
      t.summary.tags.map TagGroup.figures = u.summary.tags.map TagGroup.figures ∧
      t.features.values.Perm u.features.values ∧
      (p.trees = q.trees → t.features.values = u.features.values) ∧
      t.NamedApart ∧ u.NamedApart := by
  obtain ⟨u, hu⟩ := exists_run_of_perm hp hperm ht
  have htally := tally_of_run hp ht
  have htally' := tally_of_run hq hu
  have hvalues : t.features.values.Perm u.features.values := by
    rw [values_of_run hp ht, values_of_run hq hu]
    exact hperm.flatMap_right _
  have hcounts : t.summary.counts = u.summary.counts := by
    have hsum := (Tree.summary_of_tally htally).1.perm (hvalues.map fun f => f.summary.counts)
    exact hsum.unique (Tree.summary_of_tally htally').1
  have htrees' : ∀ v ∈ q.trees, v.Reachable := fun v hv => htrees v (hperm.mem_iff.mpr hv)
  refine ⟨u, hu, hcounts, Tree.figures_of_perm htally htally' hvalues, hvalues, fun hsame => ?_,
    namedApart_of_run hp htrees ht, namedApart_of_run hq htrees' hu⟩
  rw [values_of_run hp ht, values_of_run hq hu, hsame]

/-- One tree after the other, and the other way round in one piece. The names of the features come to
depend on the order. -/
theorem run_of_perm_reversed :
    let built := fun es : List Event => ((Builder.new {} ({} : Shelf)).processAll es).builder.tree
    let a := built [.feature { name := "a" }, .scenario { name := "s", tags := [{ name := "@x" }] }]
    let b := built [.feature { name := "a", tags := [{ name := "@x" }] }, .scenario { name := "s" },
      .step {}, .result { outcome := .failed }]
    let c := built [.feature { name := "a_2" }]
    let p := ((empty.merge (tree a)).merge (tree b)).merge (tree c)
    let q := empty.merge ((tree c).merge ((tree b).merge (tree a)))
    p.FromEmpty ∧ q.FromEmpty ∧ (∀ v ∈ p.trees, v.Reachable) ∧ p.trees.Perm q.trees ∧
      (∃ t u, p.run? = some t ∧ q.run? = some u ∧
        t.summary.tags.map TagGroup.figures = u.summary.tags.map TagGroup.figures) ∧
      p.run?.map (fun t => [0, 1, 2].map t.featureName?) =
        some [some "a", some "a_2", some "a_2_2"] ∧
      q.run?.map (fun t => [0, 1, 2].map t.featureName?) =
        some [some "a_2_2", some "a_2", some "a"] := by
  intro built a b c p q
  have hbuilt : ∀ es, (built es).Reachable := (Tree.reachable_new {} ({} : Shelf)).processAll
  have hp : p.FromEmpty := trivial
  have hq : q.FromEmpty := trivial
  have htrees : ∀ v ∈ [a, b, c], v.Reachable := by
    simp only [List.forall_mem_cons]
    exact ⟨hbuilt _, hbuilt _, hbuilt _, List.forall_mem_nil _⟩
  have hperm : p.trees.Perm q.trees := (List.reverse_perm p.trees).symm
  have hsome : p.run?.isSome := by decide +kernel
  obtain ⟨t, ht⟩ := Option.isSome_iff_exists.mp hsome
  obtain ⟨u, hu, -, htags, -⟩ := run_of_perm hp hq htrees hperm ht
  refine ⟨hp, hq, htrees, hperm, ⟨t, u, ht, hu, htags⟩, ?_, ?_⟩ <;> decide +kernel

end MergePlan

end ScenarioResults
