import Mathlib.Data.PEquiv
import ScenarioResults.Proofs.Tree.Headings

/-!
# Counterparts pair scenarios up

The counterpart of a scenario is the scenario with the same path of names. In a tallied tree a path is
that of one scenario at most, so the counterparts between two tallied trees form a partial bijection
(`Tree.counterparts`), whose inverse gives the counterparts the other way round. Between a tree and
itself it leaves every scenario where it is (`Tree.counterparts_self`).
-/

namespace ScenarioResults.Tree

variable {t u : Tree} {a b : ScenarioId}

/-- No two scenarios of a tallied tree have the same path. -/
theorem eq_of_path? (h : t.Tallied) {p : String} (ha : t.path? a = some p)
    (hb : t.path? b = some p) : a = b := by
  have hfound := find_rooted h ha
  rw [find_rooted h hb] at hfound
  cases hfound
  rfl

/-- Only a scenario that is there has a path. -/
theorem isSome_scenario?_of_path {p : String} (h : t.path? a = some p) :
    (t.scenario? a).isSome := by
  obtain ⟨_, n, -, hn, -⟩ := path?_eq_some_iff.mp h
  exact isSome_scenario?_of_name hn

/-- Names without slashes can be read off the path that they make. -/
theorem names_of_path (h : t.Tallied) {m n : String}
    (hm : '/' ∉ m.toList) (hn : '/' ∉ n.toList) (hp : t.path? a = some (m ++ "/" ++ n)) :
    t.featureName? a.feature = some m ∧ t.scenarioName? a = some n := by
  obtain ⟨m', n', hm', hn', hjoined⟩ := path?_eq_some_iff.mp hp
  have hcut : (m ++ "/" ++ n).toList.splitOn '/' = [m.toList, n.toList] :=
    splitOn_eq_pair_iff.mpr ⟨by simp, hm, hn⟩
  have hcut' : (m' ++ "/" ++ n').toList.splitOn '/' = [m'.toList, n'.toList] :=
    splitOn_eq_pair_iff.mpr
      ⟨by simp, (h.isSafe_feature hm').slash_notMem, (h.isSafe_scenario hn').slash_notMem⟩
  rw [hjoined, hcut, List.cons.injEq, List.cons.injEq, String.toList_inj, String.toList_inj] at hcut'
  obtain ⟨rfl, rfl, -⟩ := hcut'
  exact ⟨hm', hn'⟩

/-- Between tallied trees the counterpart is the scenario with the same path. -/
theorem counterpart?_eq_some_iff (ht : t.Tallied) (hu : u.Tallied) :
    (t.counterpart? a u).1 = some b ↔ ∃ p, t.path? a = some p ∧ u.path? b = some p := by
  rw [counterpart?, namePath_eq_self ht]
  constructor
  · intro h
    obtain ⟨m, hm, h⟩ := Option.bind_eq_some_iff.mp h
    obtain ⟨n, hn, h⟩ := Option.bind_eq_some_iff.mp h
    obtain ⟨hm', hn'⟩ := (scenarioByName?_eq_some_iff hu).mp h
    exact ⟨m ++ "/" ++ n, path?_eq_some_iff.mpr ⟨m, n, hm, hn, rfl⟩,
      path?_eq_some_iff.mpr ⟨m, n, hm', hn', rfl⟩⟩
  · rintro ⟨p, ha, hb⟩
    obtain ⟨m, n, hm, hn, rfl⟩ := path?_eq_some_iff.mp ha
    -- names hold no slash, so a path determines the two it is made of
    have hnames := names_of_path hu (ht.isSafe_feature hm).slash_notMem
      (ht.isSafe_scenario hn).slash_notMem hb
    have hfound : u.scenarioByName? m n = some b := (scenarioByName?_eq_some_iff hu).mpr hnames
    rw [counterpartByName?, hm, hn]
    exact hfound

/-- The counterparts between two tallied trees. -/
def counterparts (ht : t.Tallied) (hu : u.Tallied) : ScenarioId ≃. ScenarioId where
  toFun a := (t.counterpart? a u).1
  invFun b := (u.counterpart? b t).1
  inv a b := by
    show (u.counterpart? b t).1 = some a ↔ (t.counterpart? a u).1 = some b
    rw [counterpart?_eq_some_iff hu ht, counterpart?_eq_some_iff ht hu]
    exact exists_congr fun p => and_comm

/-- Between a tree and itself every scenario is its own counterpart. -/
theorem counterparts_self (ht : t.Tallied) :
    counterparts ht ht = PEquiv.ofSet {a | (t.scenario? a).isSome} := by
  apply PEquiv.ext
  intro a
  apply Option.ext
  intro b
  show (t.counterpart? a t).1 = some b ↔ b ∈ PEquiv.ofSet {a | (t.scenario? a).isSome} a
  rw [counterpart?_eq_some_iff ht ht, PEquiv.mem_ofSet_iff]
  constructor
  · rintro ⟨p, ha, hb⟩
    exact ⟨eq_of_path? ht hb ha, isSome_scenario?_of_path hb⟩
  · rintro ⟨rfl, hb⟩
    obtain ⟨p, hp⟩ := exists_path? ht hb
    exact ⟨p, hp, hp⟩

/-- Between trees whose last change was a tally, counterparts are the scenarios with the same path.
They are each other's counterparts, and no scenario is that of two. Within one tree each scenario is
its own. Asking for a counterpart changes nothing, so all this can be asked in any order. -/
theorem counterpart?_of_settled (ht : t.Settled) (hu : u.Settled) :
    (∀ a b, (t.counterpart? a u).1 = some b ↔ ∃ p, t.path? a = some p ∧ u.path? b = some p) ∧
      (∀ a b, (t.counterpart? a u).1 = some b ↔ (u.counterpart? b t).1 = some a) ∧
      (∀ a b, (t.counterpart? a u).1 = some b → (t.scenario? a).isSome ∧ (u.scenario? b).isSome) ∧
      (∀ a a' b, (t.counterpart? a u).1 = some b → (t.counterpart? a' u).1 = some b → a = a') ∧
      (∀ a, (t.scenario? a).isSome → (t.counterpart? a t).1 = some a) ∧
      ∀ a, (t.counterpart? a u).2 = t := by
  have hpath := fun a b => counterpart?_eq_some_iff (a := a) (b := b) ht.tallied hu.tallied
  refine ⟨hpath, fun a b => (counterparts ht.tallied hu.tallied).eq_some_iff.symm,
    fun a b hab => ?_, fun a a' b => (counterparts ht.tallied hu.tallied).inj, fun a ha => ?_,
    namePath_eq_self ht.tallied⟩
  · obtain ⟨p, ha, hb⟩ := (hpath a b).mp hab
    exact ⟨isSome_scenario?_of_path ha, isSome_scenario?_of_path hb⟩
  · show counterparts ht.tallied ht.tallied a = some a
    rw [counterparts_self, PEquiv.ofSet_eq_some_self_iff]
    exact ha

/-- The second of two scenarios called `a`, and its counterpart in a tree that was merged from two:
the feature comes second there, and its scenarios bear the same names. -/
theorem counterpart?_of_settled_merged :
    let tree := fun (feature : String) (scenarios : List String) =>
      ((Builder.new {} ({} : Shelf)).processAll (.feature { name := feature } ::
        scenarios.map fun name => .scenario { name })).builder.tree.tally.value
    let t := tree "f" ["a", "a"]
    let u := ((tree "g" ["b"]).merge (tree "f" ["a", "b", "a"])).tree
    t.Settled ∧ u.Settled ∧ (t.counterpart? ⟨0, 1⟩ u).1 = some ⟨1, 2⟩ ∧
      (u.counterpart? ⟨1, 2⟩ t).1 = some ⟨0, 1⟩ ∧ (u.counterpart? ⟨1, 2⟩ u).1 = some ⟨1, 2⟩ := by
  intro tree t u
  have hreachable : ∀ feature scenarios, (tree feature scenarios).Reachable := fun _ _ =>
    .tally ((reachable_new {} ({} : Shelf)).processAll _)
  have ht : t.Settled := .tally ((reachable_new {} ({} : Shelf)).processAll _) (by decide +kernel)
  have hu : u.Settled := .merge (hreachable _ _) (hreachable _ _) (by decide +kernel)
  have hfound : (t.counterpart? ⟨0, 1⟩ u).1 = some ⟨1, 2⟩ := by decide +kernel
  obtain ⟨-, hsymm, hthere, -⟩ := counterpart?_of_settled ht hu
  obtain ⟨-, -, -, -, hself, -⟩ := counterpart?_of_settled hu hu
  exact ⟨ht, hu, hfound, (hsymm _ _).mp hfound, hself _ (hthere _ _ hfound).2⟩

end ScenarioResults.Tree
