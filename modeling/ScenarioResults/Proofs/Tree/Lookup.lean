import ScenarioResults.Proofs.Tree.Path
import ScenarioResults.Proofs.Tree.Reachable
import ScenarioResults.Proofs.Tree.Stages
import ScenarioResults.Proofs.Tree.Tally

/-!
# Lookup by path is exact

After a completed tally the indices are the assigned names, and these are distinct, not empty and
free of slashes. So a path leads where its names say and nowhere else: `find_eq_some_iff`.

## Shape of the proof

`find` is a choice by the number of segments (`find_cases`). One segment names a tag or a feature
(`segmentTarget?`), two name a scenario. Each lookup in an index is turned into a statement about
assigned names, and each form of the relative path into the paths that have it.
-/

namespace ScenarioResults

open Name (IsSafe)

/-- The index of the assigned names finds a name where it is assigned. -/
theorem Name.Family.idxOf?_labels {α : Type} {f : Name.Family α} (h : f.Named) {n : String}
    {i : ℕ} : f.labels.idxOf? (some n) = some i ↔ f.name? i = some n := by
  have hname : ∀ j, f.name? j = some n ↔ f.labels[j]? = some (some n) := by
    intro j
    rw [f.name?_eq]
    exact Option.join_eq_some_iff
  rw [List.idxOf?_eq_some_iff, hname]
  constructor
  · rintro ⟨hi, hlabel, -⟩
    exact List.getElem?_eq_some_iff.mpr ⟨hi, hlabel⟩
  · intro hlabel
    obtain ⟨hi, hget⟩ := List.getElem?_eq_some_iff.mp hlabel
    refine ⟨hi, hget, fun j hj hearlier => ?_⟩
    have hj' : f.name? j = some n :=
      (hname j).mpr (List.getElem?_eq_some_iff.mpr ⟨by omega, hearlier⟩)
    have hsame := h.unique hj' ((hname i).mpr hlabel)
    omega

namespace Tree

variable {t : Tree}

/-! ## Indices -/

/-- In a tallied tree a feature is found by its name and by no other. -/
theorem featureByName?_eq_some_iff (h : t.Tallied) {n : String} {i : ℕ} :
    t.featureByName? n = some i ↔ t.featureName? i = some n := by
  rw [featureByName?, h.index, Option.filter_eq_some_iff,
    Name.Family.idxOf?_labels h.sound.features]
  refine and_iff_left_of_imp fun hname => ?_
  have hlt := Name.Family.lt_size_of_name? hname
  rw [Name.Family.size_eq_length_values] at hlt
  rw [feature?, Name.Family.get?_eq, List.getElem?_eq_getElem hlt]
  rfl

/-- In a tallied tree a scenario is found by its name and that of its feature. -/
theorem scenarioByName?_eq_some_iff (h : t.Tallied) {feature scenario : String} {id : ScenarioId} :
    t.scenarioByName? feature scenario = some id ↔
      t.featureName? id.feature = some feature ∧ t.scenarioName? id = some scenario := by
  have howner : ∀ i f, t.feature? i = some f → ∀ j,
      f.position? scenario = some j ↔ f.scenarios.name? j = some scenario := by
    intro i f hf j
    rw [FeatureEntry.position?, (h.features i f hf).1,
      Name.Family.idxOf?_labels (h.sound.scenarios i f hf)]
  constructor
  · intro hid
    obtain ⟨i, hi, hid⟩ := Option.bind_eq_some_iff.mp hid
    obtain ⟨f, hf, hid⟩ := Option.bind_eq_some_iff.mp hid
    obtain ⟨j, hj, hid⟩ := Option.bind_eq_some_iff.mp hid
    obtain ⟨-, -, hid⟩ := Option.bind_eq_some_iff.mp hid
    obtain rfl := Option.some.inj hid
    refine ⟨(featureByName?_eq_some_iff h).mp hi, ?_⟩
    rw [scenarioName?, hf]
    exact (howner i f hf j).mp hj
  · rintro ⟨hfeature, hscenario⟩
    obtain ⟨f, hf, hname⟩ := Option.bind_eq_some_iff.mp hscenario
    have hi := (featureByName?_eq_some_iff h).mpr hfeature
    have hj := (howner id.feature f hf id.scenario).mpr hname
    have hlt := Name.Family.lt_size_of_name? hname
    rw [Name.Family.size_eq_length_values] at hlt
    have hget : f.scenarios.get? id.scenario = some f.scenarios.values[id.scenario] := by
      rw [Name.Family.get?_eq, List.getElem?_eq_getElem hlt]
    simp [scenarioByName?, hi, hf, hj, hget]

/-! ## Tags -/

/-- The group is the one that a segment names: the group of the tag with this very name or, when
there is none, the first in the order of names whose safe name it is. -/
def Answers (t : Tree) (segment : String) (g : TagGroup) : Prop :=
  g ∈ t.summary.tags ∧
    (g.name = segment ∨
      ((∀ g' ∈ t.summary.tags, g'.name ≠ segment) ∧ Name.safe g.name = segment ∧
        ∀ g' ∈ t.summary.tags, Name.safe g'.name = segment → g.name ≤ g'.name))

/-- A search in an ascending list finds the least match. -/
theorem find?_eq_some_iff_of_ascending {gs : List TagGroup} (hgs : TagGroup.Ascending gs)
    {p : TagGroup → Bool} {g : TagGroup} :
    gs.find? p = some g ↔ g ∈ gs ∧ p g = true ∧ ∀ g' ∈ gs, p g' = true → g.name ≤ g'.name := by
  induction gs with
  | nil => simp
  | cons x gs ih =>
      obtain ⟨hhead, htail⟩ := List.pairwise_cons.mp hgs
      by_cases hx : p x = true
      · rw [List.find?_cons_of_pos hx, Option.some.injEq]
        constructor
        · rintro rfl
          refine ⟨List.mem_cons_self, hx, fun g' hg' _ => ?_⟩
          rcases List.mem_cons.mp hg' with rfl | hg'
          · exact String.le_refl _
          · exact Std.le_of_lt (hhead g' hg')
        · rintro ⟨hg, -, hleast⟩
          rcases List.mem_cons.mp hg with rfl | hg
          · rfl
          · exact absurd (hhead g hg) (String.not_lt.mpr (hleast x List.mem_cons_self hx))
      · rw [List.find?_cons_of_neg hx, ih htail]
        constructor
        · rintro ⟨hg, hpg, hleast⟩
          refine ⟨List.mem_cons_of_mem _ hg, hpg, fun g' hg' hpg' => ?_⟩
          rcases List.mem_cons.mp hg' with rfl | hg'
          · exact absurd hpg' hx
          · exact hleast g' hg' hpg'
        · rintro ⟨hg, hpg, hleast⟩
          rcases List.mem_cons.mp hg with rfl | hg
          · exact absurd hpg hx
          · exact ⟨hg, hpg, fun g' hg' => hleast g' (List.mem_cons_of_mem _ hg')⟩

/-- In ascending order each name has one group. -/
theorem tagGroup?_eq_some_iff (h : TagGroup.Ascending t.summary.tags) {name : String}
    {g : TagGroup} : t.tagGroup? name = some g ↔ g ∈ t.summary.tags ∧ g.name = name := by
  rw [tagGroup?, find?_eq_some_iff_of_ascending h]
  constructor
  · rintro ⟨hg, hname, -⟩
    exact ⟨hg, beq_iff_eq.mp hname⟩
  · rintro ⟨hg, rfl⟩
    refine ⟨hg, beq_self_eq_true _, fun g' _ hname => ?_⟩
    have hsame : g'.name = g.name := beq_iff_eq.mp hname
    exact hsame ▸ String.le_refl g.name

/-- In a tallied tree a segment finds the group that answers to it. -/
theorem tagGroupBySafeName?_eq_some_iff (h : t.Tallied) {segment : String} {g : TagGroup} :
    t.tagGroupBySafeName? segment = some g ↔ t.Answers segment g := by
  rw [tagGroupBySafeName?, Option.or_eq_some_iff, tagGroup?_eq_some_iff h.tags, tagGroup?,
    List.find?_eq_none, find?_eq_some_iff_of_ascending h.tags]
  simp only [beq_iff_eq, Answers]
  constructor
  · rintro (⟨hg, hname⟩ | ⟨hnone, hg, hname, hleast⟩)
    · exact ⟨hg, Or.inl hname⟩
    · exact ⟨hg, Or.inr ⟨hnone, hname, hleast⟩⟩
  · rintro ⟨hg, hname | ⟨hnone, hname, hleast⟩⟩
    · exact Or.inl ⟨hg, hname⟩
    · exact Or.inr ⟨hnone, hg, hname, hleast⟩

/-- A segment finds no group when no tag has this name or safe name. -/
theorem tagGroupBySafeName?_eq_none_iff {segment : String} :
    t.tagGroupBySafeName? segment = none ↔
      ∀ g ∈ t.summary.tags, g.name ≠ segment ∧ Name.safe g.name ≠ segment := by
  simp only [tagGroupBySafeName?, tagGroup?, Option.or_eq_none_iff, List.find?_eq_none, beq_iff_eq]
  exact ⟨fun h g hg => ⟨h.1 g hg, h.2 g hg⟩,
    fun h => ⟨fun g hg => (h g hg).1, fun g hg => (h g hg).2⟩⟩

/-- A group that a segment finds is one of those of the tree, by its name or by its safe name. -/
theorem mem_of_tagGroupBySafeName? {segment : String} {g : TagGroup}
    (h : t.tagGroupBySafeName? segment = some g) :
    g ∈ t.summary.tags ∧ (g.name = segment ∨ Name.safe g.name = segment) := by
  rcases Option.or_eq_some_iff.mp h with h | ⟨-, h⟩
  · have hname := List.find?_some h
    exact ⟨List.mem_of_find?_eq_some h, Or.inl (beq_iff_eq.mp hname)⟩
  · have hsafe := List.find?_some h
    exact ⟨List.mem_of_find?_eq_some h, Or.inr (beq_iff_eq.mp hsafe)⟩

/-! ## Following a path -/

/-- What a single segment names: a tag first, if it starts with `@`, and a feature second. -/
def segmentTarget? (t : Tree) (segment : String) : Option Target :=
  if segment.toList.head? = some '@' then
    ((t.tagGroupBySafeName? segment).map fun g => .tag g.name).or
      ((t.featureByName? segment).map .feature)
  else (t.featureByName? segment).map .feature

section Find

variable {path : String}

/-- Nothing behind the root leads to the root. -/
theorem find_of_nil (t : Tree) (h : relativePath path = []) : t.find path = some .root := by
  simp [find, h]

/-- One segment leads where it leads by itself. -/
theorem find_of_segment (t : Tree) {a : String} (hne : a ≠ "") (ha : '/' ∉ a.toList)
    (h : relativePath path = a.toList) : t.find path = t.segmentTarget? a := by
  simp [find, h, hne, List.splitOn_eq_singleton ha, segmentTarget?]

/-- Two segments lead to the scenario of these names. -/
theorem find_of_pair (t : Tree) {a b : String} (ha : '/' ∉ a.toList) (hb : '/' ∉ b.toList)
    (h : relativePath path = (a ++ "/" ++ b).toList) :
    t.find path = (t.scenarioByName? a b).map .scenario := by
  have hsplit : (relativePath path).splitOn '/' = [a.toList, b.toList] :=
    splitOn_eq_pair_iff.mpr ⟨by simp [h], ha, hb⟩
  have hne : (relativePath path).isEmpty = false := by simp [h]
  simp [find, hne, hsplit]

/-- More than two segments lead nowhere. -/
theorem find_of_deep (t : Tree) {a b c : List Char} {rest : List (List Char)}
    (h : (relativePath path).splitOn '/' = a :: b :: c :: rest) : t.find path = none := by
  have hne : (relativePath path).isEmpty = false := by
    cases hpath : relativePath path with
    | nil => simp [hpath] at h
    | cons _ _ => rfl
  simp [find, hne, h]

/-- A segment leads to a feature when it is its name and no tag stands before it. -/
theorem segmentTarget?_eq_feature_iff (h : t.Tallied) {a : String} {i : ℕ} :
    t.segmentTarget? a = some (.feature i) ↔
      t.featureName? i = some a ∧
        ¬ (a.toList.head? = some '@' ∧ ∃ g ∈ t.summary.tags, g.name = a ∨ Name.safe g.name = a) := by
  have hfeature : (t.featureByName? a).map Target.feature = some (.feature i) ↔
      t.featureName? i = some a := by
    rw [← featureByName?_eq_some_iff h]
    simp
  unfold segmentTarget?
  by_cases hat : a.toList.head? = some '@'
  · rw [if_pos hat]
    cases hgroup : t.tagGroupBySafeName? a with
    | none =>
        have hnone := tagGroupBySafeName?_eq_none_iff.mp hgroup
        rw [Option.map_none, Option.none_or, hfeature]
        refine (and_iff_left ?_).symm
        rintro ⟨-, g, hg, hname | hname⟩
        · exact (hnone g hg).1 hname
        · exact (hnone g hg).2 hname
    | some g =>
        obtain ⟨hg, hanswers⟩ := (tagGroupBySafeName?_eq_some_iff h).mp hgroup
        have hshadow : g.name = a ∨ Name.safe g.name = a := hanswers.imp id fun hfirst => hfirst.2.1
        simp only [Option.map_some, Option.some_or, Option.some.injEq, reduceCtorEq, false_iff]
        exact fun hname => hname.2 ⟨hat, g, hg, hshadow⟩
  · rw [if_neg hat, hfeature]
    exact (and_iff_left fun hshadow => hat hshadow.1).symm

/-- A segment leads to a tag when it starts with `@` and the group answers to it. -/
theorem segmentTarget?_eq_tag_iff (h : t.Tallied) {a name : String} :
    t.segmentTarget? a = some (.tag name) ↔
      a.toList.head? = some '@' ∧ ∃ g, t.Answers a g ∧ g.name = name := by
  unfold segmentTarget?
  by_cases hat : a.toList.head? = some '@'
  · rw [if_pos hat, Option.or_eq_some_iff]
    simp only [hat, true_and, ← tagGroupBySafeName?_eq_some_iff h]
    cases hgroup : t.tagGroupBySafeName? a <;> simp
  · simp [hat]

/-- A single segment leads neither to the root nor to a scenario. -/
theorem segmentTarget?_ne (a : String) (id : ScenarioId) :
    t.segmentTarget? a ≠ some .root ∧ t.segmentTarget? a ≠ some (.scenario id) := by
  unfold segmentTarget?
  cases t.tagGroupBySafeName? a <;> cases t.featureByName? a <;> split <;> simp

/-- A path that leads somewhere leads to the root with nothing behind it, where its one segment leads,
or to the scenario that its two segments name. -/
theorem find_cases {target : Target} (h : t.find path = some target) :
    (relativePath path = [] ∧ target = .root) ∨
      (∃ a : String, a ≠ "" ∧ '/' ∉ a.toList ∧ relativePath path = a.toList ∧
        t.segmentTarget? a = some target) ∨
      ∃ (a b : String) (id : ScenarioId), '/' ∉ a.toList ∧ '/' ∉ b.toList ∧
        relativePath path = (a ++ "/" ++ b).toList ∧ t.scenarioByName? a b = some id ∧
        target = .scenario id := by
  rcases segments_cases (relativePath path) with hnil | ⟨a, hne, ha, hpath⟩ |
    ⟨a, b, ha, hb, hpath⟩ | ⟨a, b, c, rest, hdeep⟩
  · rw [find_of_nil t hnil] at h
    exact Or.inl ⟨hnil, (Option.some.inj h).symm⟩
  · rw [find_of_segment t hne ha hpath] at h
    exact Or.inr (Or.inl ⟨a, hne, ha, hpath, h⟩)
  · rw [find_of_pair t ha hb hpath] at h
    obtain ⟨id, hid, hsame⟩ := Option.map_eq_some_iff.mp h
    exact Or.inr (Or.inr ⟨a, b, id, ha, hb, hpath, hid, hsame.symm⟩)
  · rw [find_of_deep t hdeep] at h
    cases h

/-- Only a single segment leads to a feature or to a tag. -/
theorem exists_segment_of_find {target : Target} (h : t.find path = some target)
    (hroot : target ≠ .root) (hscenario : ∀ id, target ≠ .scenario id) :
    ∃ a : String, a ≠ "" ∧ '/' ∉ a.toList ∧ relativePath path = a.toList ∧
      t.segmentTarget? a = some target := by
  rcases find_cases h with ⟨-, rfl⟩ | hsegment | ⟨-, -, id, -, -, -, -, rfl⟩
  · exact absurd rfl hroot
  · exact hsegment
  · exact absurd rfl (hscenario id)

/-- Only two segments lead to a scenario. -/
theorem exists_pair_of_find {id : ScenarioId} (h : t.find path = some (.scenario id)) :
    ∃ a b : String, '/' ∉ a.toList ∧ '/' ∉ b.toList ∧
      relativePath path = (a ++ "/" ++ b).toList ∧ t.scenarioByName? a b = some id := by
  rcases find_cases h with ⟨-, hroot⟩ | ⟨a, -, -, -, hsegment⟩ |
    ⟨a, b, id', ha, hb, hpath, hid, hsame⟩
  · cases hroot
  · exact absurd hsegment (segmentTarget?_ne a id).2
  · cases hsame
    exact ⟨a, b, ha, hb, hpath, hid⟩

end Find

/-! ## Where a path leads -/

/-- What a path without slashes at its ends leads to. -/
def Leads (t : Tree) (q : String) : Target → Prop
  | .root => q = "" ∨ q = rootName
  | .feature i => ∃ n, t.featureName? i = some n ∧
      (q = rootName ++ "/" ++ n ∨ (q = n ∧ n ≠ rootName)) ∧
      ¬ (n.toList.head? = some '@' ∧ ∃ g ∈ t.summary.tags, g.name = n ∨ Name.safe g.name = n)
  | .scenario id => ∃ p, t.path? id = some p ∧
      (q = rootName ++ "/" ++ p ∨ (q = p ∧ t.featureName? id.feature ≠ some rootName))
  | .tag name => ∃ x, '/' ∉ x.toList ∧ x.toList.head? = some '@' ∧
      (q = x ∨ q = rootName ++ "/" ++ x) ∧ ∃ g, t.Answers x g ∧ g.name = name

/-- The path of a scenario joins its name to that of its feature. -/
theorem path?_eq_some_iff {id : ScenarioId} {p : String} :
    t.path? id = some p ↔ ∃ a b, t.featureName? id.feature = some a ∧ t.scenarioName? id = some b ∧
      a ++ "/" ++ b = p := by
  constructor
  · intro h
    obtain ⟨a, ha, h⟩ := Option.bind_eq_some_iff.mp h
    obtain ⟨b, hb, h⟩ := Option.bind_eq_some_iff.mp h
    exact ⟨a, b, ha, hb, Option.some.inj h⟩
  · rintro ⟨a, b, ha, hb, rfl⟩
    simp [path?, ha, hb]

/-- In a tallied tree the names of features are safe. -/
theorem Tallied.isSafe_feature (h : t.Tallied) {i : ℕ} {n : String}
    (hi : t.featureName? i = some n) : IsSafe n := h.sound.features.safe hi

/-- In a tallied tree the names of scenarios are safe. -/
theorem Tallied.isSafe_scenario (h : t.Tallied) {id : ScenarioId} {n : String}
    (hid : t.scenarioName? id = some n) : IsSafe n := by
  obtain ⟨f, hf, hname⟩ := Option.bind_eq_some_iff.mp hid
  exact (h.sound.scenarios _ f hf).safe hname

section Find

variable {path : String}

/-- Which paths lead to the root. -/
theorem find_eq_root_iff : t.find path = some .root ↔ t.Leads (trimmed path) .root := by
  rw [Leads, ← relativePath_eq_nil_iff]
  constructor
  · intro hfind
    rcases find_cases hfind with ⟨hnil, -⟩ | ⟨a, -, -, -, hsegment⟩ | ⟨_, _, _, -, -, -, -, hroot⟩
    · exact hnil
    · exact absurd hsegment (segmentTarget?_ne a ⟨0, 0⟩).1
    · cases hroot
  · exact find_of_nil t

/-- Which paths lead to a feature. -/
theorem find_eq_feature_iff (h : t.Tallied) {i : ℕ} :
    t.find path = some (.feature i) ↔ t.Leads (trimmed path) (.feature i) := by
  constructor
  · intro hfind
    obtain ⟨a, hne, ha, hpath, hsegment⟩ :=
      exists_segment_of_find hfind (fun h => by cases h) (fun _ h => by cases h)
    obtain ⟨hname, hshadow⟩ := (segmentTarget?_eq_feature_iff h).mp hsegment
    exact ⟨a, hname, (relativePath_eq_segment_iff hne ha).mp hpath, hshadow⟩
  · rintro ⟨n, hname, hpath, hshadow⟩
    have hsafe := h.isSafe_feature hname
    have hrelative := (relativePath_eq_segment_iff hsafe.ne_empty hsafe.slash_notMem).mpr hpath
    rw [find_of_segment t hsafe.ne_empty hsafe.slash_notMem hrelative,
      segmentTarget?_eq_feature_iff h]
    exact ⟨hname, hshadow⟩

/-- Which paths lead to a scenario. -/
theorem find_eq_scenario_iff (h : t.Tallied) {id : ScenarioId} :
    t.find path = some (.scenario id) ↔ t.Leads (trimmed path) (.scenario id) := by
  constructor
  · intro hfind
    obtain ⟨a, b, ha, -, hpath, hid⟩ := exists_pair_of_find hfind
    obtain ⟨hfeature, hscenario⟩ := (scenarioByName?_eq_some_iff h).mp hid
    refine ⟨_, path?_eq_some_iff.mpr ⟨a, b, hfeature, hscenario, rfl⟩, ?_⟩
    rw [hfeature]
    simpa using (relativePath_eq_pair_iff ha).mp hpath
  · rintro ⟨p, hp, hpath⟩
    obtain ⟨a, b, hfeature, hscenario, rfl⟩ := path?_eq_some_iff.mp hp
    have ha := (h.isSafe_feature hfeature).slash_notMem
    have hb := (h.isSafe_scenario hscenario).slash_notMem
    rw [hfeature] at hpath
    have hrelative := (relativePath_eq_pair_iff ha).mpr (by simpa using hpath)
    rw [find_of_pair t ha hb hrelative, (scenarioByName?_eq_some_iff h).mpr ⟨hfeature, hscenario⟩]
    rfl

/-- Which paths lead to a tag. -/
theorem find_eq_tag_iff (h : t.Tallied) {name : String} :
    t.find path = some (.tag name) ↔ t.Leads (trimmed path) (.tag name) := by
  -- a segment that starts with `@` is neither empty nor the root segment
  have hat : ∀ x : String, x.toList.head? = some '@' → x ≠ "" ∧ x ≠ rootName := by
    intro x hx
    constructor
    · rintro rfl
      simp at hx
    · rintro rfl
      revert hx
      decide +kernel
  constructor
  · intro hfind
    obtain ⟨a, hne, ha, hpath, hsegment⟩ :=
      exists_segment_of_find hfind (fun h => by cases h) (fun _ h => by cases h)
    obtain ⟨hat, hgroup⟩ := (segmentTarget?_eq_tag_iff h).mp hsegment
    refine ⟨a, ha, hat, ?_, hgroup⟩
    rcases (relativePath_eq_segment_iff hne ha).mp hpath with hrooted | ⟨hself, -⟩
    · exact Or.inr hrooted
    · exact Or.inl hself
  · rintro ⟨x, hslash, hx, hpath, hgroup⟩
    obtain ⟨hne, hroot⟩ := hat x hx
    have hrelative := (relativePath_eq_segment_iff hne hslash).mpr
      (hpath.symm.imp id fun hself => ⟨hself, hroot⟩)
    rw [find_of_segment t hne hslash hrelative, segmentTarget?_eq_tag_iff h]
    exact ⟨hx, hgroup⟩

/-- In a tallied tree a path leads where `Leads` says, and nowhere else. -/
theorem find_eq_some_iff (h : t.Tallied) {target : Target} :
    t.find path = some target ↔ t.Leads (trimmed path) target := by
  cases target with
  | root => exact find_eq_root_iff
  | feature i => exact find_eq_feature_iff h
  | scenario id => exact find_eq_scenario_iff h
  | tag name => exact find_eq_tag_iff h

end Find

/-! ## Paths of scenarios -/

/-- A rooted path of names has no slashes at its ends. -/
theorem trimmed_rooted (h : t.Tallied) {id : ScenarioId} {p : String} (hp : t.path? id = some p) :
    trimmed (rootName ++ "/" ++ p) = rootName ++ "/" ++ p := by
  obtain ⟨a, b, -, hscenario, rfl⟩ := path?_eq_some_iff.mp hp
  have hb := h.isSafe_scenario hscenario
  have hne : b.toList ≠ [] := fun hnil => hb.ne_empty (String.toList_eq_nil_iff.mp hnil)
  have hlist : (rootName ++ "/" ++ (a ++ "/" ++ b)).toList =
      (rootName.toList ++ '/' :: (a.toList ++ ['/'])) ++ b.toList := by simp
  rw [← String.toList_inj, toList_trimmed]
  apply Text.strip_eq_self
  · intro c hc
    rw [hlist] at hc
    obtain rfl : 'c' = c := by simpa [rootName] using hc
    decide
  · intro c hc
    rw [hlist, List.getLast?_append_of_ne_nil _ hne] at hc
    have hmem : c ∈ b.toList := List.mem_of_getLast? hc
    rw [beq_eq_false_iff_ne]
    rintro rfl
    exact hb.slash_notMem hmem

/-- The rooted path of its names leads to a scenario. -/
theorem find_rooted (h : t.Tallied) {id : ScenarioId} {p : String} (hp : t.path? id = some p) :
    t.find (rootName ++ "/" ++ p) = some (.scenario id) := by
  rw [find_eq_some_iff h, trimmed_rooted h hp]
  exact ⟨p, hp, Or.inl rfl⟩

/-- Asking a tallied tree for a path assigns nothing. -/
theorem namePath_eq_self (h : t.Tallied) (id : ScenarioId) : t.namePath id = t := by
  have hfeature : t.nameFeature id.feature = t := by
    rw [nameFeature, Name.Family.request_eq_self h.named]
  rw [namePath, hfeature, nameScenario, Name.Family.modify_eq_self fun f hf => ?_]
  rw [FeatureEntry.nameScenario, Name.Family.request_eq_self (h.features _ f hf).2]

/-- Every scenario of a tallied tree has a path. -/
theorem exists_path? (h : t.Tallied) {id : ScenarioId} (hid : (t.scenario? id).isSome) :
    ∃ p, t.path? id = some p := by
  obtain ⟨e, he⟩ := Option.isSome_iff_exists.mp hid
  obtain ⟨f, hf, he⟩ := Option.bind_eq_some_iff.mp he
  obtain ⟨a, ha⟩ := Name.Family.exists_name? h.named hf
  obtain ⟨b, hb⟩ := Name.Family.exists_name? (h.features _ f hf).2 he
  refine ⟨a ++ "/" ++ b, path?_eq_some_iff.mpr ⟨a, b, ha, ?_, rfl⟩⟩
  rw [scenarioName?, hf]
  exact hb

/-! ## Settled trees -/

/-- The last change of a reachable tree was a completed tally: one of its own, or the one that ends
a merge. -/
inductive Settled : Tree → Prop
  | tally {u : Tree} (hu : u.Reachable) (h : u.tally.done?.isSome) : Settled u.tally.value
  | merge {base incoming : Tree} (hbase : base.Reachable) (hin : incoming.Reachable)
      (h : (base.merge incoming).summary.isSome) : Settled (base.merge incoming).tree

/-- A settled tree is what a tally of a sound tree left. -/
theorem Settled.exists_tally (h : t.Settled) : ∃ u : Tree, u.Sound ∧ u.tally = .done t := by
  cases h with
  | @tally u hu hsome =>
      cases htally : u.tally with
      | halted _ => simp [htally, Attempt.done?] at hsome
      | done t => exact ⟨u, hu.sound, htally⟩
  | @merge base incoming hbase hin hsome =>
      obtain ⟨s, hs⟩ := Option.isSome_iff_exists.mp hsome
      obtain ⟨tallied, htally, hmerged, -⟩ := summary_merge_eq_some_iff.mp hs
      have hsound := (grows_of_tally htally).sound hin.sound
      exact ⟨_, (base.grows_append hsound).sound hbase.sound, hmerged⟩

/-- A settled tree has all that a completed tally promises. -/
theorem Settled.tallied (h : t.Settled) : t.Tallied :=
  have ⟨_, hsound, htally⟩ := h.exists_tally
  tallied_of_done hsound htally

/-- There is nothing left to tally. -/
theorem Settled.tally_eq (h : t.Settled) : t.tally = .done t :=
  have ⟨_, _, htally⟩ := h.exists_tally
  tally_of_done htally

/-- In a tree whose last change was a tally every path leads where the names say, and nowhere else.
Every scenario has a path, which asking for does not change, and its rooted form leads to it and to
no other scenario. -/
theorem find_of_settled (h : t.Settled) :
    (∀ path target, t.find path = some target ↔ t.Leads (trimmed path) target) ∧
      (∀ id, t.namePath id = t) ∧
      (∀ id, (t.scenario? id).isSome →
        ∃ p, t.path? id = some p ∧ t.find (rootName ++ "/" ++ p) = some (.scenario id)) ∧
      ∀ id id' p, t.path? id = some p → t.find (rootName ++ "/" ++ p) = some (.scenario id') →
        id' = id := by
  have ht := h.tallied
  refine ⟨fun path target => find_eq_some_iff ht, namePath_eq_self ht, fun id hid => ?_,
    fun id id' p hp hfind => ?_⟩
  · obtain ⟨p, hp⟩ := exists_path? ht hid
    exact ⟨p, hp, find_rooted ht hp⟩
  · rw [find_rooted ht hp] at hfind
    cases hfind
    rfl

/-- A feature called `cucumber`: only its rooted path leads to it. Of two tags whose safe name is
`@a_b` the first in the order of names is reached by it, and each one by its own name. -/
theorem find_of_settled_reserved :
    let t := ((Builder.new {} ({} : Shelf)).processAll
      [.feature { name := "cucumber" },
        .scenario
          { name := "a", tags := [{ name := "@a?b" }, { name := "@a:b" }] }]).builder.tree.tally.value
    t.Settled ∧ ¬ t.Leads (trimmed "/cucumber/") (.feature 0) ∧
      t.Leads (trimmed "/cucumber/cucumber/") (.feature 0) ∧
      t.Leads (trimmed "@a_b") (.tag "@a:b") ∧ ¬ t.Leads (trimmed "@a_b") (.tag "@a?b") ∧
      t.Leads (trimmed "/cucumber/@a?b") (.tag "@a?b") := by
  intro t
  have h : t.Settled :=
    .tally ((reachable_new {} ({} : Shelf)).processAll _) (by decide +kernel)
  obtain ⟨hfind, -⟩ := find_of_settled h
  have hroot : t.find "/cucumber/" = some .root := by decide +kernel
  have hfeature : t.find "/cucumber/cucumber/" = some (.feature 0) := by decide +kernel
  have htag : t.find "@a_b" = some (.tag "@a:b") := by decide +kernel
  have hexact : t.find "/cucumber/@a?b" = some (.tag "@a?b") := by decide +kernel
  -- a path leads to one target, so what it finds rules out the others
  refine ⟨h, fun hleads => ?_, (hfind _ _).mp hfeature, (hfind _ _).mp htag, fun hleads => ?_,
    (hfind _ _).mp hexact⟩
  · have hboth := (hfind "/cucumber/" (.feature 0)).mpr hleads
    rw [hroot] at hboth
    cases hboth
  · have hboth := (hfind "@a_b" (.tag "@a?b")).mpr hleads
    rw [htag] at hboth
    revert hboth
    decide

end Tree

end ScenarioResults
