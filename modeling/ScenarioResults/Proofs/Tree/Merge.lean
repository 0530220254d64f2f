import ScenarioResults.Proofs.Name.Adoption
import ScenarioResults.Proofs.Tree.Lookup

/-!
# The names that a merge keeps

A merge takes the features of the incoming tree into the names of the base one after the other. A
feature whose name is taken there gets a suffix, and that suffixed name may be the one that a
feature after it brings. `featureName?_merge_eq_iff` says that a free name is lost in this way alone.
-/

namespace ScenarioResults.Tree

open Name (suffixed)

variable {base incoming tallied : Tree}

/-- A completed merge has completed the tally of the incoming tree. -/
theorem tally_of_summary (h : (base.merge incoming).summary.isSome) :
    ∃ tallied, incoming.tally = .done tallied := by
  obtain ⟨s, hs⟩ := Option.isSome_iff_exists.mp h
  obtain ⟨tallied, htally, -⟩ := summary_merge_eq_some_iff.mp hs
  exact ⟨tallied, htally⟩

/-- Every feature of a tallied tree has a name. -/
theorem Tallied.exists_featureName? (h : incoming.Tallied) {i : ℕ}
    (hi : i < incoming.features.size) : ∃ n, incoming.featureName? i = some n := by
  have hlt : i < incoming.features.values.length := by
    rwa [← Name.Family.size_eq_length_values]
  have hget : incoming.features.get? i = some incoming.features.values[i] := by
    rw [Name.Family.get?_eq, List.getElem?_eq_getElem hlt]
  exact Name.Family.exists_name? h.named hget

/-- The tally that ends a merge gives no feature another name: all of them have one. -/
theorem featureName?_merge_of_done (h : incoming.tally = .done tallied) {i : ℕ} {m : String}
    (hm : tallied.featureName? i = some m) :
    (base.merge incoming).tree.featureName? (base.features.size + i) =
      (base.append tallied).featureName? (base.features.size + i) := by
  have hsome : ((base.append tallied).featureName? (base.features.size + i)).isSome := by
    rw [featureName?, append, Name.Family.isSome_name?_adopt]
    exact Option.isSome_iff_exists.mpr ⟨m, hm⟩
  obtain ⟨n, hn⟩ := Option.isSome_iff_exists.mp hsome
  rw [hn]
  exact (base.grows_merge_of_done h).featureName? hn

/-- A tallied tree keeps its names when it is tallied again, and they are all there is. -/
theorem featureName?_of_done (h : incoming.Tallied) (hdone : incoming.tally = .done tallied)
    {i : ℕ} (hi : i < incoming.features.size) :
    tallied.featureName? i = incoming.featureName? i := by
  obtain ⟨n, hn⟩ := h.exists_featureName? hi
  rw [hn]
  exact (grows_of_tally hdone).featureName? hn

/-- In a completed merge of a tallied tree a feature keeps its name exactly when the base has not
handed the name out and no feature before it, called by a name of which this one is a suffixed form,
was given it. -/
theorem featureName?_merge_eq_iff (hin : incoming.Settled)
    (hdone : (base.merge incoming).summary.isSome) {i : ℕ} {n : String}
    (h : incoming.featureName? i = some n) :
    (base.merge incoming).tree.featureName? (base.features.size + i) = some n ↔
      n ∉ base.features.names.taken ∧
        ∀ j < i, ∀ m k, incoming.featureName? j = some m → suffixed m k = n →
          (base.merge incoming).tree.featureName? (base.features.size + j) ≠ some n := by
  obtain ⟨tallied, htally⟩ := tally_of_summary hdone
  have ht := hin.tallied
  have hi : i < incoming.features.size := Name.Family.lt_size_of_name? h
  -- up to the feature in question the merged names are those of the adoption
  have hmerged : ∀ j ≤ i, ∃ m, incoming.featureName? j = some m ∧ tallied.featureName? j = some m ∧
      (base.merge incoming).tree.featureName? (base.features.size + j) =
        (base.append tallied).featureName? (base.features.size + j) := by
    intro j hj
    obtain ⟨m, hm⟩ := ht.exists_featureName? (Nat.lt_of_le_of_lt hj hi)
    have htm : tallied.featureName? j = some m := by
      rw [featureName?_of_done ht htally (by omega), hm]
    exact ⟨m, hm, htm, featureName?_merge_of_done htally htm⟩
  have hname : tallied.featureName? i = some n := by
    rw [featureName?_of_done ht htally hi, h]
  obtain ⟨-, -, -, hown⟩ := hmerged i (Nat.le_refl i)
  rw [hown, featureName?, append, Name.Family.name?_adopt_eq_iff _ _ hname]
  refine and_congr_right fun _ => ⟨?_, ?_⟩
  · intro hall j hj m k _ _
    obtain ⟨-, -, -, hj'⟩ := hmerged j (Nat.le_of_lt hj)
    rw [hj']
    exact hall j hj
  · intro hall j hj hlost
    obtain ⟨m, hm, htm, hj'⟩ := hmerged j (Nat.le_of_lt hj)
    -- the names of the incoming features differ, so the earlier one has this name by a suffix
    rcases Name.Family.name?_adopt_cases _ _ htm hlost with rfl | ⟨k, rfl⟩
    · have hsame := ht.sound.features.unique hm h
      omega
    · refine hall j hj m k hm rfl ?_
      rw [hj']
      exact hlost

/-- The feature called `a` becomes `a_2`, and `a_3` behind it keeps its name. -/
theorem featureName?_merge_suffix_kept :
    let tree := fun names : List String => ((Builder.new {} ({} : Shelf)).processAll
      (names.map fun name => .feature { name })).builder.tree.tally.value
    (tree ["a", "a_3"]).Settled ∧ ((tree ["a"]).merge (tree ["a", "a_3"])).summary.isSome ∧
      (tree ["a", "a_3"]).featureName? 1 = some "a_3" ∧
      ((tree ["a"]).merge (tree ["a", "a_3"])).tree.featureName? 2 = some "a_3" := by
  intro tree
  have hin : (tree ["a", "a_3"]).Settled :=
    .tally ((reachable_new {} ({} : Shelf)).processAll _) (by decide +kernel)
  have hdone : ((tree ["a"]).merge (tree ["a", "a_3"])).summary.isSome := by decide +kernel
  have hname : (tree ["a", "a_3"]).featureName? 1 = some "a_3" := by decide +kernel
  have hfree : "a_3" ∉ (tree ["a"]).features.names.taken := by decide +kernel
  -- the feature before it becomes `a_2`, which leaves `a_3` free
  refine ⟨hin, hdone, hname, (featureName?_merge_eq_iff hin hdone hname).mpr ⟨hfree, ?_⟩⟩
  intro j hj m k _ _
  obtain rfl : j = 0 := by omega
  decide +kernel

/-- A free name is not always kept: here `a_2` goes to the feature before, whose own name is taken. -/
theorem free_name_lost : ¬ ∀ base incoming : Tree, base.Settled → incoming.Settled →
    ∀ i n, incoming.featureName? i = some n → n ∉ base.features.names.taken →
      (base.merge incoming).tree.featureName? (base.features.size + i) = some n := by
  intro hall
  let tree := fun names : List String => ((Builder.new {} ({} : Shelf)).processAll
    (names.map fun name => .feature { name })).builder.tree.tally.value
  have hbase : (tree ["a"]).Settled :=
    .tally ((reachable_new {} ({} : Shelf)).processAll _) (by decide +kernel)
  have hin : (tree ["a", "a_2"]).Settled :=
    .tally ((reachable_new {} ({} : Shelf)).processAll _) (by decide +kernel)
  have hkept := hall (tree ["a"]) (tree ["a", "a_2"]) hbase hin 1 "a_2" (by decide +kernel)
    (by decide +kernel)
  revert hkept
  decide +kernel

end ScenarioResults.Tree
