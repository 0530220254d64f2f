import ScenarioResults.Proofs.Tree.Balance
import ScenarioResults.Proofs.Tree.Growth

/-!
# When tallies and merges complete

The durations recorded in a tree are added up along many routes: by background, hooks and steps, by
scenario, by feature, by tag and for the whole tree. A tally completes exactly when the total of all
of them is in range, so the one sum over the tree decides for all routes, and then each time that it
derives is the exact sum. A merge completes exactly when the total over both trees is in range.

## Shape of the proof

Each stage of a tally adds up part of what the tree records, and a part is never longer than the
whole (`Duration.totalNanos_le_of_sublist`); this is also what bounds a group by tag, whose members
are some of the scenarios (`isSome_tagGroups`). The stages are put together by the inversions of a
completed tally. Conversely a tree that was tallied holds its exact total as a duration, and no
duration is longer than the longest one.
-/

namespace ScenarioResults

open Duration (totalNanos longest)
open Name (Family)

/-! ## What is recorded -/

/-- The durations of all hooks and steps, those of the background included. -/
def Scenario.durations (s : Scenario) : List Duration := s.verdicts.map Verdict.duration

/-- The durations of all hooks and steps of all scenarios. -/
def Feature.durations (f : Feature) : List Duration := f.scenarios.flatMap Scenario.durations

/-- The durations of all hooks and steps of all scenarios of all features. -/
def Tree.durations (t : Tree) : List Duration := t.content.flatMap Feature.durations

/-- The total of a scenario is that of its hooks, its steps and its background. -/
theorem Scenario.totalNanos_durations (s : Scenario) : totalNanos s.durations =
    totalNanos (((s.before ++ s.after).map Hook.verdict).map Verdict.duration) +
      totalNanos ((s.steps.map Step.verdict).map Verdict.duration) +
        totalNanos ((s.backgroundSteps.map Step.verdict).map Verdict.duration) := by
  simp only [durations, verdicts, List.map_append, Duration.totalNanos_append]
  omega

/-- The durations of a feature come scenario by scenario. -/
theorem FeatureEntry.durations_content (f : FeatureEntry) : f.content.durations =
    f.scenarios.values.flatMap fun e => e.content.durations := by
  rw [Feature.durations, content, List.flatMap_map]

namespace Tree

/-- The durations of a tree come feature by feature. -/
theorem durations_eq_features (t : Tree) :
    t.durations = t.features.values.flatMap fun f => f.content.durations := by
  rw [durations, content, List.flatMap_map]

/-- The durations of a tree come scenario by scenario. -/
theorem durations_eq_scenarios (t : Tree) :
    t.durations = t.scenarios.flatMap fun x => x.2.content.durations := by
  rw [durations_eq_features, List.flatMap_def, List.flatMap_def,
    t.map_scenarios fun e => e.content.durations, List.flatMap_def, List.flatten_flatten,
    List.map_map]
  simp only [FeatureEntry.durations_content, List.flatMap_def, Function.comp_def]

/-- Durations are part of the content. -/
theorem durations_of_content {t t' : Tree} (h : t'.content = t.content) :
    t'.durations = t.durations := congrArg (List.flatMap Feature.durations) h

end Tree

/-! ## Scenarios -/

namespace ScenarioEntry

variable {e e' : ScenarioEntry}

/-- The time derived for the background, if there is one, is the exact sum. -/
def BackgroundTimed (e : ScenarioEntry) : Prop :=
  ∀ b, e.content.background = some b →
    e.background.duration.nanos = totalNanos (b.steps.map (·.verdict.duration))

/-- Each time derived for the scenario is the exact sum. -/
structure Timed (e : ScenarioEntry) : Prop where
  standing : e.standing.duration.nanos = totalNanos e.content.durations
  background : e.BackgroundTimed

/-- A tallied background is timed. -/
theorem backgroundTimed_of_tally (h : e.tallyBackground = .done e') : e'.BackgroundTimed := by
  obtain ⟨hcontent, hbackground⟩ := background_of_tally h
  intro b hb
  rw [hcontent] at hb
  exact (hbackground b hb).2

/-- A tallied scenario is timed. -/
theorem timed_of_tally (h : e.tally = .done e') : e'.Timed := by
  obtain ⟨e₁, duration, hfirst, -, rfl⟩ := tally_eq_done_iff.mp h
  exact ⟨(stands_of_tally h).duration, fun b hb => backgroundTimed_of_tally hfirst b hb⟩

/-- Verdicts have a total time when it is in range. -/
theorem isSome_totalTime?_iff {verdicts : List Verdict} :
    (totalTime? verdicts).isSome ↔ totalNanos (verdicts.map Verdict.duration) ≤ longest :=
  Duration.isSome_sum?_iff

/-- The background is tallied when its steps fit. -/
theorem exists_tallyBackground
    (h : totalNanos ((e.content.backgroundSteps.map Step.verdict).map Verdict.duration) ≤ longest) :
    ∃ e₁, e.tallyBackground = .done e₁ := by
  cases hb : e.content.background with
  | none => exact ⟨e, tallyBackground_eq_done_iff.mpr (Or.inl ⟨hb, rfl⟩)⟩
  | some b =>
      have hsteps : (totalTime? (b.steps.map Step.verdict)).isSome := by
        rw [isSome_totalTime?_iff]
        simpa only [Scenario.backgroundSteps, hb, Option.map_some, Option.getD_some] using h
      obtain ⟨duration, hduration⟩ := Option.isSome_iff_exists.mp hsteps
      exact ⟨_, tallyBackground_eq_done_iff.mpr (Or.inr ⟨b, duration, hb, hduration, rfl⟩)⟩

/-- The time that the background adds to its scenario. -/
theorem nanos_background (h : e.BackgroundTimed) :
    (e.content.background.elim Duration.zero fun _ => e.background.duration).nanos =
      totalNanos ((e.content.backgroundSteps.map Step.verdict).map Verdict.duration) := by
  cases hb : e.content.background with
  | none => simp [Scenario.backgroundSteps, hb, Duration.zero, totalNanos]
  | some b => simpa [Scenario.backgroundSteps, hb, Function.comp_def] using h b hb

/-- Hooks, steps and background have a sum when all of them fit. -/
theorem isSome_time? (hfits : totalNanos e.content.durations ≤ longest)
    (hbackground : e.BackgroundTimed) : e.time?.isSome := by
  rw [Scenario.totalNanos_durations] at hfits
  have hlast := nanos_background hbackground
  -- each partial sum is part of the sum of all durations, which fits
  have hhooks : (totalTime? ((e.content.before ++ e.content.after).map Hook.verdict)).isSome :=
    isSome_totalTime?_iff.mpr (by omega)
  have hsteps : (totalTime? (e.content.steps.map Step.verdict)).isSome :=
    isSome_totalTime?_iff.mpr (by omega)
  obtain ⟨hooks, hhooks⟩ := Option.isSome_iff_exists.mp hhooks
  obtain ⟨steps, hsteps⟩ := Option.isSome_iff_exists.mp hsteps
  have hhooksTime := totalTime?_eq_some_iff.mp hhooks
  have hstepsTime := totalTime?_eq_some_iff.mp hsteps
  have hown : (hooks.add? steps).isSome := Duration.isSome_add?_iff.mpr (by omega)
  obtain ⟨own, hown⟩ := Option.isSome_iff_exists.mp hown
  have hownTime := Duration.add?_eq_some_iff.mp hown
  simp only [time?, hhooks, hsteps, hown, Option.bind_eq_bind, Option.bind_some]
  exact Duration.isSome_add?_iff.mpr (by omega)

/-- A scenario is tallied when what it records fits. -/
theorem exists_tally (h : totalNanos e.content.durations ≤ longest) : ∃ e', e.tally = .done e' := by
  have htotal := e.content.totalNanos_durations
  obtain ⟨e₁, hfirst⟩ := exists_tallyBackground (e := e) (by omega)
  rw [← (background_of_tally hfirst).1] at h
  obtain ⟨duration, htime⟩ :=
    Option.isSome_iff_exists.mp (isSome_time? h (backgroundTimed_of_tally hfirst))
  exact ⟨_, tally_eq_done_iff.mpr ⟨e₁, duration, hfirst, htime, rfl⟩⟩

end ScenarioEntry

/-! ## Features -/

namespace FeatureEntry

variable {f f' : FeatureEntry}

/-- The times of the tallied scenarios total what the feature records. -/
theorem totalNanos_of_attempt {scenarios : Family ScenarioEntry}
    (h : f.scenarios.attempt ScenarioEntry.tally = .done scenarios) :
    totalNanos ((scenarios.values.map ScenarioEntry.counts).map Counts.duration) =
      totalNanos f.content.durations := by
  have htimed : ∀ e ∈ scenarios.values,
      e.counts.duration.nanos = totalNanos e.content.durations := fun e he =>
    have ⟨_, he₀⟩ := Family.exists_of_mem_attempt h he
    (ScenarioEntry.timed_of_tally he₀).standing
  have hcontent := Family.map_values_of_attempt ScenarioEntry.content_tally h
  rw [List.map_map, Feature.durations, content, ← hcontent, List.flatMap_map]
  exact Duration.totalNanos_map htimed

/-- The counters of a tallied feature hold the exact total of what it records. -/
theorem nanos_of_tally (h : f.tally = .done f') :
    f'.summary.counts.duration.nanos = totalNanos f'.content.durations := by
  have hcontent := content_of_tally h
  obtain ⟨scenarios, counts, hscenarios, hcounts, hlast⟩ := tally_eq_done_iff.mp h
  rw [hcontent, ← totalNanos_of_attempt hscenarios, hlast]
  exact (Counts.isSum_of_sum? hcounts).duration

/-- A feature is tallied when what it records fits. -/
theorem exists_tally (h : totalNanos f.content.durations ≤ longest) : ∃ f', f.tally = .done f' := by
  have hpart : ∀ e ∈ f.scenarios.values, totalNanos e.content.durations ≤ longest := by
    intro e he
    refine Nat.le_trans ?_ h
    rw [durations_content]
    exact Duration.totalNanos_le_flatMap (fun e : ScenarioEntry => e.content.durations) he
  obtain ⟨scenarios, hscenarios⟩ :=
    Family.exists_attempt fun e he => ScenarioEntry.exists_tally (hpart e he)
  have hcounts : (Counts.sum? (scenarios.values.map ScenarioEntry.counts)).isSome := by
    rw [Counts.isSome_sum?_iff, totalNanos_of_attempt hscenarios]
    exact h
  obtain ⟨counts, hcounts⟩ := Option.isSome_iff_exists.mp hcounts
  exact ⟨_, tally_eq_done_iff.mpr ⟨scenarios, counts, hscenarios, hcounts, rfl⟩⟩

end FeatureEntry

/-! ## Groups by tag -/

namespace TagGroup

variable {id : ScenarioId} {e : ScenarioEntry} {name : String} {gs : List TagGroup}

/-- A group has room for a scenario when the two together fit. -/
theorem Collects.isSome_add {g : TagGroup} {xs : List (ScenarioId × ScenarioEntry)}
    (h : g.Collects xs) (hroom : id ∉ xs.map Prod.fst →
      totalNanos ((xs ++ [(id, e)]).map (·.2.standing.duration)) ≤ longest) :
    (g.add id e).isSome := by
  unfold TagGroup.add
  simp only [h.members, List.contains_iff_mem]
  split
  · rfl
  · next hnew =>
    have hfits := hroom hnew
    rw [List.map_append, Duration.totalNanos_append] at hfits
    have htime := h.counts.duration
    rw [List.map_map] at htime
    rw [Option.isSome_map, Counts.add?, Option.isSome_map, Duration.isSome_add?_iff, htime]
    exact hfits

/-- A scenario joins the group of a name when there is room in it, if there is one. -/
theorem isSome_addTo (h : ∀ g ∈ gs, g.name = name → (g.add id e).isSome) :
    (addTo id e name gs).isSome := by
  -- a new group holds nothing else, and one time alone is in range
  have hnew : (TagGroup.add { name } id e).isSome := by
    refine (collects_nil name).isSome_add fun _ => ?_
    simpa [totalNanos] using e.standing.duration.nanos_le_longest
  induction gs with
  | nil => rwa [addTo, Option.isSome_map]
  | cons g gs ih =>
      have htail := ih fun g' hg' => h g' (List.mem_cons_of_mem _ hg')
      unfold addTo
      split
      · next heq =>
        rw [Option.isSome_map]
        exact h g List.mem_cons_self heq.symm
      · split
        · rwa [Option.isSome_map]
        · rwa [Option.isSome_map]

end TagGroup

namespace Tree

variable {t t' base incoming : Tree}

/-- The groups by tag are built when the scenarios' times fit: whatever group a scenario joins, those
in it and the scenario are some of all scenarios. -/
theorem isSome_tagGroups
    (h : totalNanos (t.scenarios.map (·.2.standing.duration)) ≤ longest) : t.tagGroups.isSome := by
  rw [tagGroups_eq]
  refine isSome_foldlM_of_prefix fun done x gs hinit hdone => ?_
  have hgroups := groups_of_prefix ((List.prefix_append done [x]).trans hinit) hdone
  have hnew := fun name : String => notMem_of_prefix hinit fun y => name ∈ t.tagsOf y.1 y.2
  refine isSome_foldlM_of_prefix fun seen name gs₁ _ hseen => ?_
  refine TagGroup.isSome_addTo fun g hg hname => ?_
  have hcollects := (hgroups.addToAll hnew hseen).collects g hg
  refine hcollects.isSome_add fun hroom => ?_
  -- the scenario joins the group only if it did not join by an earlier of its tags
  have hunseen : g.name ∉ seen := fun hmem => hroom (by simp [hmem])
  refine Nat.le_trans (Duration.totalNanos_le_of_sublist ?_) h
  rw [if_neg hunseen, List.append_nil]
  exact ((List.filter_sublist.append_right [x]).trans hinit.sublist).map _

/-! ## Trees -/

/-- The times of the tallied features, and those of their scenarios, total what the tree records. -/
theorem totalNanos_of_attempt {features : Family FeatureEntry}
    (h : t.features.attempt FeatureEntry.tally = .done features) :
    totalNanos ((features.values.map (·.summary.counts)).map Counts.duration) =
        totalNanos t.durations ∧
      totalNanos (({ features } : Tree).scenarios.map (·.2.standing.duration)) =
        totalNanos t.durations := by
  have hfeatures : ∀ f ∈ features.values, ∃ f₀ : FeatureEntry, f₀.tally = .done f := fun _ hf =>
    Family.exists_of_mem_attempt h hf
  have hcontent : ({ features } : Tree).content = t.content :=
    Family.map_values_of_attempt FeatureEntry.content_tally h
  rw [← durations_of_content hcontent]
  refine ⟨?_, ?_⟩
  · rw [List.map_map, durations_eq_features]
    refine Duration.totalNanos_map fun f hf => ?_
    obtain ⟨f₀, hf₀⟩ := hfeatures f hf
    exact FeatureEntry.nanos_of_tally hf₀
  · rw [durations_eq_scenarios]
    refine Duration.totalNanos_map fun x hx => ?_
    obtain ⟨e₀, he₀⟩ := exists_tally_of_mem hfeatures hx
    exact (ScenarioEntry.timed_of_tally he₀).standing

/-- A tree is tallied when what it records fits. -/
theorem exists_tally (h : totalNanos t.durations ≤ longest) : ∃ t', t.tally = .done t' := by
  have hpart : ∀ f ∈ t.features.values, totalNanos f.content.durations ≤ longest := by
    intro f hf
    refine Nat.le_trans ?_ h
    rw [durations_eq_features]
    exact Duration.totalNanos_le_flatMap (fun f : FeatureEntry => f.content.durations) hf
  obtain ⟨features, hfeatures⟩ :=
    Family.exists_attempt fun f hf => FeatureEntry.exists_tally (hpart f hf)
  obtain ⟨hcounts, htags⟩ := totalNanos_of_attempt hfeatures
  obtain ⟨counts, hcounts⟩ := Option.isSome_iff_exists.mp <|
    Counts.isSome_sum?_iff.mpr (hcounts ▸ h)
  obtain ⟨tags, htags⟩ := Option.isSome_iff_exists.mp (isSome_tagGroups (htags ▸ h))
  exact ⟨_, tally_eq_done_iff.mpr ⟨features, counts, tags, hfeatures, hcounts, htags, rfl⟩⟩

/-- Each time derived for the tree, its features, its groups by tag and its scenarios is the exact
sum. -/
structure Timed (t : Tree) : Prop where
  root : t.summary.counts.duration.nanos = totalNanos t.durations
  features : ∀ f ∈ t.features.values,
    f.summary.counts.duration.nanos = totalNanos f.content.durations
  tags : ∀ g ∈ t.summary.tags, g.counts.duration.nanos =
    totalNanos ((t.scenarios.filter fun x => g.name ∈ t.tagsOf x.1 x.2).flatMap
      fun x => x.2.content.durations)
  scenarios : ∀ x ∈ t.scenarios, x.2.Timed

/-- Where scenarios are timed, the sum of their counters holds their exact total. -/
theorem nanos_of_isSum {xs : List (ScenarioId × ScenarioEntry)} (hxs : ∀ x ∈ xs, x.2.Timed)
    {c : Counts} (h : c.IsSum (xs.map fun x => x.2.counts)) :
    c.duration.nanos = totalNanos (xs.flatMap fun x => x.2.content.durations) := by
  rw [h.duration, List.map_map]
  exact Duration.totalNanos_map fun x hx => (hxs x hx).standing

/-- A tallied tree is timed at every level. -/
theorem timed_of_tally (h : t.tally = .done t') : t'.Timed := by
  obtain ⟨-, -, -, hfeatures⟩ := summary_of_tally h
  have hscenarios : ∀ x ∈ t'.scenarios, x.2.Timed := fun x hx =>
    have ⟨_, he₀⟩ := exists_tally_of_mem hfeatures hx
    ScenarioEntry.timed_of_tally he₀
  refine ⟨?_, fun f hf => ?_, fun g hg => ?_, hscenarios⟩
  · rw [durations_eq_scenarios]
    exact nanos_of_isSum hscenarios (balances_of_tally h).counts
  · obtain ⟨f₀, hf₀⟩ := hfeatures f hf
    exact FeatureEntry.nanos_of_tally hf₀
  · exact nanos_of_isSum (fun x hx => hscenarios x (List.mem_of_mem_filter hx))
      (balances_tag_of_tally h hg).counts

/-- A tally leaves the durations. -/
theorem durations_of_tally (h : t.tally = .done t') : t'.durations = t.durations :=
  durations_of_content (content_of_tally h)

/-- A tally completes exactly when what the tree records fits. -/
theorem exists_tally_iff : (∃ t', t.tally = .done t') ↔ totalNanos t.durations ≤ longest := by
  refine ⟨fun ⟨t', h⟩ => ?_, exists_tally⟩
  rw [← durations_of_tally h, ← (timed_of_tally h).root]
  exact t'.summary.counts.duration.nanos_le_longest

/-! ## Merges -/

/-- The durations of both trees come one after the other. -/
theorem durations_append (base incoming : Tree) :
    (base.append incoming).durations = base.durations ++ incoming.durations := by
  simp [durations, content_append]

/-- A merge completes exactly when what both trees record fits. -/
theorem isSome_summary_merge_iff : (base.merge incoming).summary.isSome ↔
    totalNanos base.durations + totalNanos incoming.durations ≤ longest := by
  have hboth : ∀ tallied, incoming.tally = .done tallied →
      totalNanos (base.append tallied).durations =
        totalNanos base.durations + totalNanos incoming.durations := fun tallied htally => by
    rw [durations_append, Duration.totalNanos_append, durations_of_tally htally]
  rw [Option.isSome_iff_exists]
  constructor
  · rintro ⟨s, hs⟩
    obtain ⟨tallied, htally, hmerged, -⟩ := summary_merge_eq_some_iff.mp hs
    rw [← hboth tallied htally]
    exact exists_tally_iff.mp ⟨_, hmerged⟩
  · intro h
    obtain ⟨tallied, htally⟩ := exists_tally (t := incoming) (by omega)
    rw [← hboth tallied htally] at h
    obtain ⟨merged, hmerged⟩ := exists_tally h
    refine ⟨_, summary_merge_eq_some_iff.mpr ⟨tallied, htally, ?_, rfl⟩⟩
    simp [merge, htally, hmerged]

/-- A tally completes exactly when the durations that the tree records add up to one that is in
range, and a merge exactly when those of both trees do. Then no part of them, added up in any order,
is out of range, and each time that is derived is the exact sum. -/
theorem completes_iff_total_in_range (base incoming : Tree) :
    ((∃ t', base.tally = .done t') ↔ totalNanos base.durations ≤ longest) ∧
    ((base.merge incoming).summary.isSome ↔
      totalNanos base.durations + totalNanos incoming.durations ≤ longest) ∧
    (∀ t', base.tally = .done t' → t'.durations = base.durations ∧ t'.Timed ∧
      ∀ part, part.Subperm base.durations → (Duration.sum? part).isSome) ∧
    ∀ s, (base.merge incoming).summary = some s →
      (base.merge incoming).tree.durations = base.durations ++ incoming.durations ∧
        (base.merge incoming).tree.Timed ∧
          s.counts.duration.nanos = totalNanos incoming.durations ∧
            ∀ part, part.Subperm (base.durations ++ incoming.durations) →
              (Duration.sum? part).isSome := by
  refine ⟨exists_tally_iff, isSome_summary_merge_iff, fun t' h => ?_, fun s hs => ?_⟩
  · exact ⟨durations_of_tally h, timed_of_tally h, fun part hpart =>
      Duration.isSome_sum?_of_subperm hpart (exists_tally_iff.mp ⟨t', h⟩)⟩
  · obtain ⟨tallied, htally, hmerged, rfl⟩ := summary_merge_eq_some_iff.mp hs
    have hin : tallied.durations = incoming.durations := durations_of_tally htally
    refine ⟨?_, timed_of_tally hmerged, ?_, fun part hpart => ?_⟩
    · rw [durations_of_tally hmerged, durations_append, hin]
    · rw [← hin]
      exact (timed_of_tally htally).root
    · refine Duration.isSome_sum?_of_subperm hpart ?_
      rw [Duration.totalNanos_append]
      exact isSome_summary_merge_iff.mp (hs ▸ rfl)

/-- A step as long as can be: a second tree without any time may still be merged in, one with a
single nanosecond may not. -/
theorem completes_at_longest :
    let tree := fun d : Duration => ((Builder.new {} ({} : Shelf)).processAll
      [.feature { name := "a" }, .scenario { name := "s" }, .step {},
        .result { outcome := .passed, duration := d }]).builder.tree
    let full := tree ⟨longest, Nat.le_refl _⟩
    (∃ t', full.tally = .done t') ∧ (full.merge (tree ⟨0, by decide⟩)).summary.isSome ∧
      ¬ (full.merge (tree ⟨1, by decide⟩)).summary.isSome := by
  intro tree full
  obtain ⟨htally, hmerge, -, -⟩ := completes_iff_total_in_range full (tree ⟨0, by decide⟩)
  obtain ⟨-, hover, -, -⟩ := completes_iff_total_in_range full (tree ⟨1, by decide⟩)
  refine ⟨htally.mpr ?_, hmerge.mpr ?_, fun h => absurd (hover.mp h) ?_⟩ <;> decide +kernel

end Tree

end ScenarioResults
