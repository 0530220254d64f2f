import ScenarioResults.Proofs.Tree.Primary

/-!
# What a scenario is called within its feature

The identifier of a scenario often repeats that of its feature, with a semicolon behind it. This front
part is cut off before the scenario is named. Both identifiers are made safe first, and nothing is lost
by that: reserved characters are replaced one by one, and a semicolon is not reserved, so what is left
is the rest made safe (`FeatureEntry.scenarioBase_of_headers`). The front part is the base of the
feature's name and not the name that the feature was given among its siblings.
-/

namespace ScenarioResults

namespace Name

/-- Characters are replaced one by one, so names that are not empty are made safe piece by piece. -/
theorem safe_append {front rest : String} (hfront : front ≠ "") (hrest : rest ≠ "") :
    safe (front ++ rest) = safe front ++ safe rest := by
  have happend : front ++ rest ≠ "" := fun h => hfront (String.append_eq_empty_iff.mp h).1
  apply String.toList_injective
  rw [toList_safe happend, String.toList_append, String.toList_append, List.map_append,
    toList_safe hfront, toList_safe hrest]

/-- A safe name is made safe by doing nothing. -/
theorem IsSafe.safe_eq {name : String} (h : IsSafe name) : safe name = name :=
  safe_eq_self h.ne_empty fun c hc => isReserved_eq_false_iff.mpr (h.chars c hc)

/-- A semicolon stays, and so it separates the safe parts. -/
theorem safe_append_semicolon {front rest : String} (hfront : front ≠ "") (hrest : rest ≠ "") :
    safe (front ++ ";" ++ rest) = safe front ++ ";" ++ safe rest := by
  have hsemicolon : safe ";" = ";" := by decide +kernel
  have hne : front ++ ";" ≠ "" := fun h => hfront (String.append_eq_empty_iff.mp h).1
  rw [safe_append hne hrest, safe_append hfront (by decide), hsemicolon]

end Name

namespace FeatureEntry

variable {feature scenario : Header} {rest : String}

/-- The front part is cut off where something follows it. -/
theorem scenarioBase_of_append (hrest : rest ≠ "")
    (h : Name.safe scenario.declared = Name.safe feature.declared ++ ";" ++ rest) :
    scenarioBase feature scenario = rest := by
  obtain ⟨c, cs, hcs⟩ := List.exists_cons_of_ne_nil (String.toList_eq_nil_iff.not.mpr hrest)
  have hcut : (Name.safe feature.declared ++ ";").toList.isPrefixOf?
      (Name.safe scenario.declared).toList = some (c :: cs) := by
    rw [List.isPrefixOf?_eq_some_iff_append_eq, h, ← hcs]
    exact String.toList_append.symm
  simp only [scenarioBase, hcut]
  rw [← hcs, String.ofList_toList]

/-- Where nothing follows the front part, or it does not stand in front, nothing is cut off. -/
theorem scenarioBase_of_forall_ne
    (h : ∀ rest, rest ≠ "" → Name.safe scenario.declared ≠ Name.safe feature.declared ++ ";" ++ rest) :
    scenarioBase feature scenario = Name.safe scenario.declared := by
  unfold scenarioBase
  dsimp only
  split
  · next c cs hcut =>
      have hlist := List.append_eq_of_isPrefixOf?_eq_some hcut
      refine absurd (String.toList_injective ?_) (h (String.ofList (c :: cs)) (by simp))
      simp only [← hlist, String.toList_append, String.toList_ofList]
  · rfl

/-- A nameless scenario that is asked for its name claims its base among its siblings. -/
theorem name?_nameScenario {f : FeatureEntry} {e : ScenarioEntry} {j : ℕ}
    (he : f.scenarios.get? j = some e) (hname : f.scenarios.name? j = none) :
    (f.nameScenario j).scenarios.name? j =
      some (f.scenarios.names.claim (scenarioBase f.header e.content.header)).1 := by
  let base : ScenarioEntry → String := fun e => scenarioBase f.header e.content.header
  show (f.scenarios.request base j).name? j = some (f.scenarios.names.claim (base e)).1
  exact Name.Family.name?_request he hname

end FeatureEntry

namespace Tree

variable {t t' : Tree} {id id' : ScenarioId} {f : FeatureEntry}

/-- A request reaches a scenario through its feature. -/
theorem scenarioName?_nameScenario (hf : t.feature? id.feature = some f) :
    (t.nameScenario id).scenarioName? id =
      (f.nameScenario id.scenario).scenarios.name? id.scenario := by
  have hfeature : (t.nameScenario id).feature? id.feature = some (f.nameScenario id.scenario) := by
    rw [feature?, Name.Family.get?_eq] at hf ⊢
    rw [nameScenario, Name.Family.values_modify, List.getElem?_modify_eq, hf]
    rfl
  rw [scenarioName?, hfeature, Option.bind_some]

/-- The scenarios at the two positions are called alike, on request and by a tally. -/
structure CallsAlike (t : Tree) (id : ScenarioId) (t' : Tree) (id' : ScenarioId) : Prop where
  onRequest : (t.nameScenario id).scenarioName? id = (t'.nameScenario id').scenarioName? id'
  byTally : ∀ u u', t.tally = .done u → t'.tally = .done u' →
    u.scenarioName? id = u'.scenarioName? id'

/-- What a scenario is called depends on its feature alone. The name of the feature is not a part of
it: that name belongs to the tree. -/
theorem callsAlike_of_feature? (hf : t.feature? id.feature = some f)
    (hf' : t'.feature? id'.feature = some f) (hid : id.scenario = id'.scenario) :
    t.CallsAlike id t' id' where
  onRequest := by
    rw [scenarioName?_nameScenario hf, scenarioName?_nameScenario hf', hid]
  byTally u u' hu hu' := by
    have hname : u.scenarioName? id = _ :=
      (completes_of_tally hu).scenarioNames id.feature f hf id.scenario
    have hname' : u'.scenarioName? id' = _ :=
      (completes_of_tally hu').scenarioNames id'.feature f hf' id'.scenario
    rw [hname, hname', hid]

end Tree

namespace FeatureEntry

/-- A scenario whose identifier is that of its feature, a semicolon and something more is named for
that rest, made safe, whatever reserved characters the identifiers hold. One whose safe identifier
does not begin with the safe identifier of the feature and a semicolon, or has nothing behind them, is
named for the whole. The base is a safe name in any case. It is what the scenario claims among its
siblings when it is first asked for its name, and it is the same wherever the feature stands and
whatever the feature is called there. -/
theorem scenarioBase_of_headers (feature scenario : Header) :
    (∀ rest, feature.declared ≠ "" → rest ≠ "" →
        scenario.declared = feature.declared ++ ";" ++ rest →
          scenarioBase feature scenario = Name.safe rest) ∧
      (¬ (Name.safe feature.declared ++ ";").toList <+: (Name.safe scenario.declared).toList ∨
          Name.safe scenario.declared = Name.safe feature.declared ++ ";" →
        scenarioBase feature scenario = Name.safe scenario.declared) ∧
      scenarioBase feature scenario ≠ "" ∧
      Name.safe (scenarioBase feature scenario) = scenarioBase feature scenario ∧
      ∀ (f : FeatureEntry) (t : Tree) (id : ScenarioId), f.header = feature →
        t.feature? id.feature = some f →
          (∀ e, f.scenarios.get? id.scenario = some e → e.content.header = scenario →
            f.scenarios.name? id.scenario = none →
              (t.nameScenario id).scenarioName? id =
                some (f.scenarios.names.claim (scenarioBase feature scenario)).1) ∧
          ∀ (t' : Tree) (id' : ScenarioId), t'.feature? id'.feature = some f →
            id.scenario = id'.scenario → t.CallsAlike id t' id' := by
  have hsafe := isSafe_scenarioBase feature scenario
  refine ⟨fun rest hfeature hrest hdeclared => ?_, fun hwhole => ?_, hsafe.ne_empty, hsafe.safe_eq,
    fun f t id hheader hf => ⟨fun e he hscenario hname => ?_, fun t' id' hf' hid =>
      Tree.callsAlike_of_feature? hf hf' hid⟩⟩
  -- the prefix is cut off before or after sanitising, which is the same
  · refine scenarioBase_of_append (Name.safe_ne_empty rest) ?_
    rw [hdeclared, Name.safe_append_semicolon hfeature hrest]
  · refine scenarioBase_of_forall_ne fun rest hrest happend => ?_
    rcases hwhole with hfront | halone
    · rw [happend] at hfront
      exact hfront ⟨rest.toList, String.toList_append.symm⟩
    · rw [halone] at happend
      exact hrest (by simpa using congrArg String.toList happend)
  · subst hheader hscenario
    rw [Tree.scenarioName?_nameScenario hf]
    exact name?_nameScenario he hname

/-- Two features of one name: the second is called by a suffix, and still its scenario is called like
that of the first. A scenario that has nothing behind the semicolon keeps it. -/
theorem scenarioBase_of_headers_suffixed :
    let feature : Header := { name := "a/b" }
    let scenario : Header := { id := some "a/b;c:d" }
    let bare : Header := { id := some "a:b;" }
    let t := (((Builder.new {} ({} : Shelf)).processAll
      [.feature feature, .scenario scenario, .feature feature,
        .scenario scenario]).builder.tree.nameFeature 0).nameFeature 1
    scenarioBase feature scenario = "c_d" ∧ scenarioBase feature bare = "a_b;" ∧
      t.featureName? 0 = some "a_b" ∧ t.featureName? 1 = some "a_b_2" ∧
      (t.nameScenario ⟨1, 0⟩).scenarioName? ⟨1, 0⟩ = some "c_d" ∧
      t.CallsAlike ⟨1, 0⟩ t ⟨0, 0⟩ := by
  intro feature scenario bare t
  let f : FeatureEntry :=
    { uri := none
      header := feature
      scenarios := ({} : Name.Family ScenarioEntry).push { content := { header := scenario } } }
  have hfirst : t.feature? 0 = some f := by decide +kernel
  have hsecond : t.feature? 1 = some f := by decide +kernel
  obtain ⟨hcut, -, -, -, hnames⟩ := scenarioBase_of_headers feature scenario
  obtain ⟨-, hwhole, -⟩ := scenarioBase_of_headers feature bare
  have hbase : scenarioBase feature scenario = "c_d" :=
    (hcut "c:d" (by decide) (by decide) (by decide)).trans (by decide +kernel)
  have hbare : scenarioBase feature bare = "a_b;" :=
    (hwhole (Or.inr (by decide +kernel))).trans (by decide +kernel)
  obtain ⟨hname, halike⟩ := hnames f t ⟨1, 0⟩ rfl hsecond
  have hasked := hname { content := { header := scenario } } rfl rfl rfl
  -- the base is free in the second feature, although its sibling holds a scenario of that name
  have hclaim : (f.scenarios.names.claim "c_d").1 = "c_d" := by decide +kernel
  rw [hbase, hclaim] at hasked
  have hcalled : t.featureName? 0 = some "a_b" ∧ t.featureName? 1 = some "a_b_2" := by
    decide +kernel
  exact ⟨hbase, hbare, hcalled.1, hcalled.2, hasked, halike t ⟨0, 0⟩ hfirst rfl⟩

end FeatureEntry

end ScenarioResults
