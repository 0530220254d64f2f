import ScenarioResults.Proofs.Counts
import ScenarioResults.Proofs.Tree.Tally

/-!
# The groups by tag

The groups of a tree are built scenario by scenario and, for each scenario, tag by tag. Whatever was
there before and however often a tag is repeated, each group in the end collects the scenarios to
which its tag applies, in tree order and each once, and there is a group for each tag that applies
to some scenario: `Tree.groups_tagGroups`.

## Shape of the proof

`Groups chosen gs` says that the groups `gs` collect, for each name, the scenarios `chosen` for it.
Joining one scenario to one group changes what is chosen for one name (`Groups.addTo`); the two
loops follow by induction on what they have seen (`foldlM_of_prefix`). A scenario counts once
because no two scenarios have the same position (`Tree.pairwise_before_scenarios`).
-/

namespace ScenarioResults

/-- Tree order of positions. -/
def ScenarioId.Before (a b : ScenarioId) : Prop :=
  a.feature < b.feature ∨ a.feature = b.feature ∧ a.scenario < b.scenario

/-- No position comes before itself. -/
theorem ScenarioId.not_before_self (a : ScenarioId) : ¬ a.Before a := by
  rintro (h | ⟨-, h⟩) <;> exact Nat.lt_irrefl _ h

/-- Positions in a list ascend. -/
theorem pairwise_zipIdx {α : Type} (xs : List α) :
    xs.zipIdx.Pairwise fun x y => x.2 < y.2 := by
  have hlt : (xs.zipIdx.map Prod.snd).Pairwise (· < ·) := by
    rw [List.zipIdx_map_snd]
    exact List.pairwise_lt_range'
  exact List.pairwise_map.mp hlt

namespace Tree

/-- The scenarios of a tree stand in tree order. -/
theorem pairwise_before_scenarios (t : Tree) :
    t.scenarios.Pairwise fun x y => x.1.Before y.1 := by
  unfold scenarios featureScenarios
  rw [List.pairwise_flatMap]
  refine ⟨fun (f, i) _ => ?_, (pairwise_zipIdx _).imp fun {x y} hlt => ?_⟩
  · rw [List.pairwise_map]
    exact (pairwise_zipIdx _).imp fun hlt => Or.inr ⟨rfl, hlt⟩
  · simp only [List.mem_map, forall_exists_index, and_imp]
    rintro _ a - rfl _ b - rfl
    exact Or.inl hlt

end Tree

namespace TagGroup

variable {id : ScenarioId} {e : ScenarioEntry} {name : String} {g g' : TagGroup}
  {gs gs' : List TagGroup} {xs : List (ScenarioId × ScenarioEntry)}

/-- The group has these scenarios as its members. -/
structure Collects (g : TagGroup) (xs : List (ScenarioId × ScenarioEntry)) : Prop where
  members : g.members = xs.map Prod.fst
  counts : g.counts.IsSum (xs.map fun x => x.2.counts)
  failed : g.failed = (xs.filter fun x => x.2.isFailed).map Prod.fst

theorem collects_nil (name : String) : ({ name } : TagGroup).Collects [] :=
  ⟨rfl, Counts.isSum_nil, rfl⟩

/-- A scenario joins a group at its end, unless it is a member. -/
theorem Collects.add (h : g.Collects xs) (hadd : g.add id e = some g') :
    g'.Collects (if id ∈ xs.map Prod.fst then xs else xs ++ [(id, e)]) := by
  unfold TagGroup.add at hadd
  simp only [h.members, List.contains_iff_mem] at hadd
  split
  · next hmem =>
    rw [if_pos hmem] at hadd
    obtain rfl := Option.some.inj hadd
    exact h
  · next hnew =>
    rw [if_neg hnew] at hadd
    obtain ⟨counts, hcounts, rfl⟩ := Option.map_eq_some_iff.mp hadd
    refine ⟨by simp, ?_, ?_⟩
    · simpa using h.counts.append (Counts.isSum_singleton e.counts) hcounts
    · cases hfailed : e.isFailed <;> simp [hfailed, h.failed]

/-- Joining a scenario to the group of a name leaves the groups of other names alone. -/
theorem mem_addTo_iff (hgs : Ascending gs) (h : addTo id e name gs = some gs') :
    ∃ g g', g.name = name ∧ (g ∈ gs ∨ g = { name } ∧ ∀ g₁ ∈ gs, g₁.name ≠ name) ∧
      g.add id e = some g' ∧ ∀ g₁, g₁ ∈ gs' ↔ g₁ = g' ∨ g₁ ∈ gs ∧ g₁.name ≠ name := by
  induction gs generalizing gs' with
  | nil =>
      obtain ⟨g', hadd, rfl⟩ := Option.map_eq_some_iff.mp h
      exact ⟨_, g', rfl, Or.inr ⟨rfl, by simp⟩, hadd, by simp⟩
  | cons g gs ih =>
      obtain ⟨hhead, htail⟩ := List.pairwise_cons.mp hgs
      unfold addTo at h
      split at h
      · next heq =>
        obtain ⟨g', hadd, rfl⟩ := Option.map_eq_some_iff.mp h
        have hne : ∀ g₁ ∈ gs, g₁.name ≠ name := fun g₁ hg₁ hname =>
          String.lt_irrefl _ (hname.trans heq ▸ hhead g₁ hg₁)
        refine ⟨g, g', heq.symm, Or.inl List.mem_cons_self, hadd, fun g₁ => ?_⟩
        rw [List.mem_cons, List.mem_cons]
        grind
      · next hname =>
        split at h
        · next hlt =>
          obtain ⟨g', hadd, rfl⟩ := Option.map_eq_some_iff.mp h
          have hne : ∀ g₁ ∈ g :: gs, g₁.name ≠ name :=
            List.forall_mem_cons.mpr ⟨fun heq => hname heq.symm, fun g₁ hg₁ heq =>
              String.lt_irrefl _ (heq ▸ String.lt_trans hlt (hhead g₁ hg₁))⟩
          refine ⟨_, g', rfl, Or.inr ⟨rfl, hne⟩, hadd, fun g₁ => ?_⟩
          rw [List.mem_cons]
          exact or_congr_right ⟨fun hg₁ => ⟨hg₁, hne g₁ hg₁⟩, And.left⟩
        · obtain ⟨gs₁, hrest, rfl⟩ := Option.map_eq_some_iff.mp h
          obtain ⟨g₀, g', hg₀, hmem, hadd, hiff⟩ := ih htail hrest
          refine ⟨g₀, g', hg₀, ?_, hadd, fun g₁ => ?_⟩
          · rcases hmem with hmem | ⟨hnew, hne⟩
            · exact Or.inl (List.mem_cons_of_mem _ hmem)
            · exact Or.inr ⟨hnew, List.forall_mem_cons.mpr ⟨fun heq => hname heq.symm, hne⟩⟩
          · rw [List.mem_cons, hiff, List.mem_cons]
            grind

/-! ## All groups -/

/-- The groups ascend by name, and there is one for each name for which scenarios are chosen, which
collects these. -/
structure Groups (chosen : String → List (ScenarioId × ScenarioEntry)) (gs : List TagGroup) :
    Prop where
  ascending : Ascending gs
  collects : ∀ g ∈ gs, g.Collects (chosen g.name)
  named : ∀ name, (∃ g ∈ gs, g.name = name) ↔ chosen name ≠ []

variable {chosen chosen' : String → List (ScenarioId × ScenarioEntry)}

theorem groups_nil : Groups (fun _ => []) [] :=
  ⟨List.Pairwise.nil, by simp, by simp⟩

/-- Joining one scenario to one group. -/
theorem Groups.addTo (h : Groups chosen gs) (hadd : TagGroup.addTo id e name gs = some gs')
    (hname : chosen' name =
      if id ∈ (chosen name).map Prod.fst then chosen name else chosen name ++ [(id, e)])
    (hother : ∀ other, other ≠ name → chosen' other = chosen other) : Groups chosen' gs' := by
  obtain ⟨g, g', hg, hmem, hjoined, hiff⟩ := mem_addTo_iff h.ascending hadd
  -- a group that was not there has collected what was chosen so far: nothing
  have hcollects : g.Collects (chosen name) := by
    rcases hmem with hmem | ⟨hnew, hne⟩
    · exact hg ▸ h.collects g hmem
    · have hnone : chosen name = [] := by
        by_contra hsome
        obtain ⟨g₁, hg₁, heq⟩ := (h.named name).mpr hsome
        exact hne g₁ hg₁ heq
      rw [hnone, hnew]
      exact collects_nil name
  have hg' : g'.name = name := (name_add hjoined).trans hg
  refine ⟨ascending_addTo hadd h.ascending, fun g₁ hg₁ => ?_, fun other => ?_⟩
  · rcases (hiff g₁).mp hg₁ with rfl | ⟨hold, hne⟩
    · rw [hg', hname]
      exact hcollects.add hjoined
    · rw [hother _ hne]
      exact h.collects g₁ hold
  · by_cases heq : other = name
    · subst heq
      have hsome : chosen' other ≠ [] := by
        rw [hname]
        split
        · next hid =>
          intro hnil
          simp [hnil] at hid
        · simp
      exact iff_of_true ⟨g', (hiff g').mpr (Or.inl rfl), hg'⟩ hsome
    · rw [hother other heq, ← h.named other]
      constructor
      · rintro ⟨g₁, hg₁, hname₁⟩
        rcases (hiff g₁).mp hg₁ with rfl | ⟨hold, -⟩
        · exact absurd (hname₁.symm.trans hg') heq
        · exact ⟨g₁, hold, hname₁⟩
      · rintro ⟨g₁, hg₁, hname₁⟩
        exact ⟨g₁, (hiff g₁).mpr (Or.inr ⟨hg₁, hname₁ ▸ heq⟩), hname₁⟩

/-- Joining a new scenario to the groups of some names, which may repeat. -/
theorem Groups.addToAll (h : Groups chosen gs) (hnew : ∀ name, id ∉ (chosen name).map Prod.fst)
    {names : List String}
    (hadd : names.foldlM (fun gs name => TagGroup.addTo id e name gs) gs = some gs') :
    Groups (fun name => chosen name ++ if name ∈ names then [(id, e)] else []) gs' := by
  refine foldlM_of_prefix
    (P := fun seen gs =>
      Groups (fun name => chosen name ++ if name ∈ seen then [(id, e)] else []) gs)
    (fun seen name gs₁ gs₂ _ hseen hjoined => hseen.addTo hjoined ?_ fun other hne => ?_) ?_ hadd
  · by_cases hmem : name ∈ seen
    · simp [hmem]
    · have hnew := hnew name
      simp only [hmem, if_false, List.append_nil, if_neg hnew]
      simp
  · simp [hne]
  · simpa using h

end TagGroup

namespace Tree

variable {t : Tree} {gs : List TagGroup}

/-- A scenario joins the groups of all tags that apply to it. -/
def joinTags (t : Tree) (gs : List TagGroup) (x : ScenarioId × ScenarioEntry) :
    Option (List TagGroup) :=
  (t.tagsOf x.1 x.2).foldlM (fun gs name => TagGroup.addTo x.1 x.2 name gs) gs

/-- The groups are built scenario by scenario. -/
theorem tagGroups_eq (t : Tree) : t.tagGroups = t.scenarios.foldlM t.joinTags [] := rfl

/-- A scenario is in no group before its turn. -/
theorem notMem_of_prefix {seen : List (ScenarioId × ScenarioEntry)} {x : ScenarioId × ScenarioEntry}
    (hinit : seen ++ [x] <+: t.scenarios) (p : ScenarioId × ScenarioEntry → Bool) :
    x.1 ∉ (seen.filter p).map Prod.fst := by
  intro hmem
  obtain ⟨y, hy, heq⟩ := List.mem_map.mp hmem
  have hbefore := List.pairwise_append.mp (t.pairwise_before_scenarios.sublist hinit.sublist)
  have hlt := hbefore.2.2 y (List.mem_of_mem_filter hy) x (List.mem_singleton_self x)
  rw [heq] at hlt
  exact ScenarioId.not_before_self x.1 hlt

/-- The groups collect the scenarios that have had their turn by the tags that apply to them. -/
theorem groups_of_prefix {done : List (ScenarioId × ScenarioEntry)} (hdone : done <+: t.scenarios)
    (h : done.foldlM t.joinTags [] = some gs) :
    TagGroup.Groups (fun name => done.filter fun x => name ∈ t.tagsOf x.1 x.2) gs := by
  refine foldlM_of_prefix
    (P := fun seen gs =>
      TagGroup.Groups (fun name => seen.filter fun x => name ∈ t.tagsOf x.1 x.2) gs)
    (fun seen x gs₁ gs₂ hinit hseen hjoined => ?_) (by simpa using TagGroup.groups_nil) h
  have hnext := hseen.addToAll (fun name => notMem_of_prefix (hinit.trans hdone) _) hjoined
  simpa [List.filter_append, List.filter_cons] using hnext

/-- The groups of a tree collect the scenarios by the tags that apply to them. -/
theorem groups_tagGroups (h : t.tagGroups = some gs) :
    TagGroup.Groups (fun name => t.scenarios.filter fun x => name ∈ t.tagsOf x.1 x.2) gs :=
  groups_of_prefix List.prefix_rfl h

end Tree

end ScenarioResults
