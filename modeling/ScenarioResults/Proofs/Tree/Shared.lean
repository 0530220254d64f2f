import ScenarioResults.Proofs.Tree.Frame

/-!
# Shared trees after a merge that stops

A shared tree stays usable when a merge into it stops, so the next reader or merge works on what the
stopped one left. That is the tree of before only where the incoming tree could not be tallied by
itself. Otherwise its features are there already, beside counters, failures, names and groups that
do not know of them, and no later merge mends this: `exposed_of_stopped`.

## Shape of the proof

A tally that stops has not come to the summary of the tree (`Tree.summary_of_halted`), and wherever
it stops, the content is there. So a stopped merge is described by what it appends. Once the
durations of a shared tree are out of range together, every merge into it stops, which carries the
description over to all that follow.
-/

namespace ScenarioResults

open Duration (totalNanos longest)

namespace Tree

variable {t t' base incoming : Tree}

/-- The durations that the tree records add up to one that is in range. -/
def InRange (t : Tree) : Prop := totalNanos t.durations ≤ longest

instance : DecidablePred InRange := fun t => inferInstanceAs (Decidable (totalNanos t.durations ≤ _))

/-- A tally that stops leaves all that is derived for the tree as a whole as it was. -/
theorem summary_of_halted (h : t.tally = .halted t') : t'.summary = t.summary := by
  cases hfeatures : t.features.attempt FeatureEntry.tally with
  | halted features =>
      simp only [tally, hfeatures, Attempt.map_halted, Attempt.andThen, Attempt.halted.injEq] at h
      exact h ▸ rfl
  | done features =>
      cases hcounts : Counts.sum? (features.values.map (·.summary.counts)) with
      | none =>
          simp only [tally, hfeatures, Attempt.map_done, Attempt.andThen, Attempt.require, hcounts,
            Attempt.halted.injEq] at h
          exact h ▸ rfl
      | some counts =>
          -- the counters of the features have a sum, so nothing is out of range
          have hfits : t.InRange := by
            rw [InRange, ← (totalNanos_of_attempt hfeatures).1, ← Counts.isSome_sum?_iff, hcounts]
            rfl
          obtain ⟨_, hdone⟩ := exists_tally hfits
          rw [hdone] at h
          cases h

/-- A merge of a tree that cannot be tallied by itself leaves the base alone. -/
theorem tree_merge_of_not_inRange (h : ¬ incoming.InRange) :
    (base.merge incoming).tree = base := by
  cases hfirst : incoming.tally with
  | done tallied => exact absurd (exists_tally_iff.mp ⟨_, hfirst⟩) h
  | halted _ => simp [merge, hfirst]

/-- Every other merge that stops does so in the tally of the base, with the features appended. -/
theorem tally_append_of_stopped (h : (base.merge incoming).summary = none)
    (hin : incoming.InRange) :
    ∃ tallied, incoming.tally = .done tallied ∧
      (base.append tallied).tally = .halted (base.merge incoming).tree := by
  obtain ⟨tallied, hfirst⟩ := exists_tally hin
  refine ⟨tallied, hfirst, ?_⟩
  cases hlast : (base.append tallied).tally with
  | done merged => simp [merge, hfirst, hlast] at h
  | halted left => simp [merge, hfirst, hlast]

/-- A merge that stops leaves the summary of the base, and all features that could be tallied. -/
theorem merge_of_stopped (h : (base.merge incoming).summary = none) :
    (base.merge incoming).tree.summary = base.summary ∧
      (base.merge incoming).tree.content =
        base.content ++ if incoming.InRange then incoming.content else [] := by
  by_cases hin : incoming.InRange
  · obtain ⟨tallied, hfirst, hlast⟩ := tally_append_of_stopped h hin
    have hcontent := (base.append tallied).content_tally
    rw [hlast, Attempt.value_halted, content_append, content_of_tally hfirst] at hcontent
    rw [if_pos hin]
    exact ⟨(summary_of_halted hlast).trans rfl, hcontent⟩
  · rw [tree_merge_of_not_inRange hin, if_neg hin, List.append_nil]
    exact ⟨rfl, rfl⟩

/-- A tree without features adds nothing. -/
theorem append_of_size_eq_zero (h : incoming.features.size = 0) : base.append incoming = base := by
  have hmembers : incoming.features.members = [] := List.eq_nil_of_length_eq_zero h
  simp [append, Name.Family.adopt, hmembers, Name.Family.renameEach]

/-- A merge that stops leaves the base alone exactly when the incoming tree cannot be tallied by
itself, or has no features while a tally of the base stops without changing it. -/
theorem tree_merge_eq_base_iff (h : (base.merge incoming).summary = none) :
    (base.merge incoming).tree = base ↔
      ¬ incoming.InRange ∨ incoming.features.size = 0 ∧ base.tally = .halted base := by
  by_cases hin : incoming.InRange
  · obtain ⟨tallied, hfirst, hlast⟩ := tally_append_of_stopped h hin
    have hsize := size_of_tally hfirst
    rw [or_iff_right (not_not_intro hin)]
    constructor
    · intro hsame
      have hcontent := (merge_of_stopped h).2
      rw [hsame, if_pos hin, List.self_eq_append_right] at hcontent
      have hnone : incoming.features.size = 0 := by
        rw [← length_content, hcontent, List.length_nil]
      rw [append_of_size_eq_zero (hsize.trans hnone), hsame] at hlast
      exact ⟨hnone, hlast⟩
    · rintro ⟨hnone, hhalted⟩
      rw [append_of_size_eq_zero (hsize.trans hnone), hhalted] at hlast
      exact (Attempt.halted.inj hlast).symm
  · exact iff_of_true (tree_merge_of_not_inRange hin) (Or.inl hin)

end Tree

namespace SharedTree

/-- Merge trees one after the other, going on after a merge that stops. -/
def mergeAll (s : SharedTree) (trees : List Tree) : SharedTree :=
  trees.foldl (fun s t => (s.merge t).2) s

/-- A merge stops when the durations of the shared tree are out of range already. -/
theorem stops_of_not_inRange {s : SharedTree} (h : ¬ s.tree.InRange) (t : Tree) :
    (s.merge t).1.summary = none := by
  rw [← Option.not_isSome_iff_eq_none]
  intro hsome
  exact h (Nat.le_trans (Nat.le_add_right _ _) (Tree.isSome_summary_merge_iff.mp hsome))

/-- Into a tree that is out of range, merges append features and derive nothing. -/
theorem mergeAll_of_not_inRange {s : SharedTree} (h : ¬ s.tree.InRange) (trees : List Tree) :
    ¬ (s.mergeAll trees).tree.InRange ∧ (s.mergeAll trees).tree.summary = s.tree.summary ∧
      (s.mergeAll trees).tree.content =
        s.tree.content ++ (trees.filter Tree.InRange).flatMap Tree.content := by
  induction trees generalizing s with
  | nil => exact ⟨h, rfl, by simp [mergeAll]⟩
  | cons t trees ih =>
      obtain ⟨hsummary, hcontent⟩ := Tree.merge_of_stopped (stops_of_not_inRange h t)
      -- durations are never taken out, so the sum stays out of range
      have hout : ¬ (s.merge t).2.tree.InRange := fun hin => by
        refine h (Nat.le_trans ?_ hin)
        rw [Tree.durations, Tree.durations, SharedTree.merge, hcontent, List.flatMap_append,
          Duration.totalNanos_append]
        exact Nat.le_add_right _ _
      obtain ⟨hlast, hsummary', hcontent'⟩ := ih hout
      refine ⟨hlast, hsummary'.trans hsummary, hcontent'.trans ?_⟩
      rw [SharedTree.merge, hcontent, List.append_assoc, List.filter_cons]
      by_cases hin : t.InRange <;> simp [hin]

/-- What is exposed after a merge that stops is the shared tree of before exactly when the incoming
tree cannot be tallied by itself, or has no features while a tally of the shared tree stops without
changing it. If it can be tallied, its features are there from then on. Every later merge stops too
and appends what it can, and all that is derived for the tree as a whole stays that of before. -/
theorem exposed_of_stopped (s : SharedTree) (incoming : Tree)
    (hstopped : (s.merge incoming).1.summary = none) :
    ((s.merge incoming).2 = s ↔ ¬ incoming.InRange ∨
      incoming.features.size = 0 ∧ s.tree.tally = .halted s.tree) ∧
    (incoming.InRange → ∀ later,
      let exposed := (s.merge incoming).2.mergeAll later
      (∀ t, (exposed.merge t).1.summary = none) ∧ exposed.tree.summary = s.tree.summary ∧
        exposed.tree.content = s.tree.content ++ incoming.content ++
          (later.filter Tree.InRange).flatMap Tree.content) := by
  refine ⟨?_, fun hin later => ?_⟩
  · rw [← Tree.tree_merge_eq_base_iff hstopped]
    exact ⟨congrArg SharedTree.tree, congrArg SharedTree.mk⟩
  · obtain ⟨hsummary, hcontent⟩ := Tree.merge_of_stopped hstopped
    rw [if_pos hin] at hcontent
    have hout : ¬ (s.merge incoming).2.tree.InRange := by
      have hover := Tree.isSome_summary_merge_iff.not.mp (Option.not_isSome_iff_eq_none.mpr hstopped)
      rwa [Tree.InRange, SharedTree.merge, Tree.durations, hcontent, List.flatMap_append,
        Duration.totalNanos_append]
    obtain ⟨hlast, hsummary', hcontent'⟩ := mergeAll_of_not_inRange hout later
    exact ⟨stops_of_not_inRange hlast, hsummary'.trans hsummary, hcontent ▸ hcontent'⟩

/-- A tree with one step as long as can be takes up one with a single nanosecond, and then one without
any time. It has three features afterwards, and still counts and groups one scenario. -/
theorem exposed_of_stopped_overfull :
    let tree := fun d : Duration => ((Builder.new {} ({} : Shelf)).processAll
      [.feature { name := "a" }, .scenario { name := "s" }, .step {},
        .result { outcome := .passed, duration := d }]).builder.tree
    let s : SharedTree := { tree := (tree ⟨longest, Nat.le_refl _⟩).tally.value }
    let exposed := (s.merge (tree ⟨1, by decide⟩)).2.mergeAll [tree ⟨0, by decide⟩]
    (s.merge (tree ⟨1, by decide⟩)).1.summary = none ∧ (s.merge (tree ⟨1, by decide⟩)).2 ≠ s ∧
      (exposed.merge {}).1.summary = none ∧ exposed.tree.content.length = 3 ∧
      exposed.tree.summary.counts.total = 1 ∧
      exposed.tree.summary.tags.map TagGroup.members = [[⟨0, 0⟩]] := by
  intro tree s exposed
  have hstopped : (s.merge (tree ⟨1, by decide⟩)).1.summary = none := by decide +kernel
  have hin : (tree ⟨1, by decide⟩).InRange := by decide +kernel
  obtain ⟨hrestored, hlater⟩ := exposed_of_stopped s (tree ⟨1, by decide⟩) hstopped
  obtain ⟨hstops, hsummary, hcontent⟩ := hlater hin [tree ⟨0, by decide⟩]
  refine ⟨hstopped, fun hsame => absurd (hrestored.mp hsame) ?_, hstops {}, ?_, ?_, ?_⟩
  · decide +kernel
  · rw [hcontent]
    decide +kernel
  · rw [hsummary]
    decide +kernel
  · rw [hsummary]
    decide +kernel

/-- What a reader finds after a merge that stopped is not always what it found before. -/
theorem stopped_merge_exposed : ¬ ∀ (start : Tree) (earlier : List Tree) (incoming : Tree),
    let s := ({ tree := start } : SharedTree).mergeAll earlier
    (s.merge incoming).1.summary = none →
      ∀ view : Tree → ℕ, (s.merge incoming).2.read view = s.read view := by
  intro hall
  let tree := fun d : Duration => ((Builder.new {} ({} : Shelf)).processAll
    [.feature { name := "a" }, .scenario { name := "s" }, .step {},
      .result { outcome := .passed, duration := d }]).builder.tree
  have hread := hall {} [tree ⟨longest, Nat.le_refl _⟩] (tree ⟨1, by decide⟩) (by decide +kernel)
    fun t => t.features.size
  revert hread
  decide +kernel

end SharedTree

end ScenarioResults
