import ScenarioResults.Content
import ScenarioResults.Name.Family
import ScenarioResults.Name.Safe

/-!
# The tree of results

A tree holds features and a feature holds scenarios, both as families of named members. Every node
carries its recorded content and, beside it, derived state: flags, counters, lists of failures, indices
of names and groups by tag. Derived state is meaningful after a tally only; until then it is what the
last tally left. `Tree.content` forgets everything derived.
-/

namespace ScenarioResults

/-- Position of a scenario: that of its feature, then its own. -/
structure ScenarioId where
  feature : Nat
  scenario : Nat
  deriving DecidableEq, Repr, Inhabited

/-- How a unit stands: whether it failed or skipped, and the time it took. -/
structure Standing where
  flags : Flags := {}
  duration : Duration := Duration.zero
  deriving DecidableEq, Repr, Inhabited

namespace Standing

/-- Neither failed nor skipped. -/
def isPassed (s : Standing) : Bool := !s.flags.failed && !s.flags.skipped

/-- Counters of the unit. -/
def counts (s : Standing) : Counts := Counts.ofUnit s.flags.failed s.flags.skipped s.duration

end Standing

/-- A scenario in a tree: what was recorded, and how the scenario and its background stand. -/
structure ScenarioEntry where
  content : Scenario
  standing : Standing := {}
  background : Standing := {}
  deriving DecidableEq, Repr, Inhabited

namespace ScenarioEntry

/-- Counters of the scenario as one unit. -/
def counts (e : ScenarioEntry) : Counts := e.standing.counts

/-- Whether the scenario failed. -/
def isFailed (e : ScenarioEntry) : Bool := e.standing.flags.failed

/-- Why the scenario failed; nothing for one that did not. -/
def details? (e : ScenarioEntry) : Option String :=
  if e.isFailed then e.content.explanation? else none

end ScenarioEntry

/-- What a tally derives for a feature: the sum of its scenarios' counters, the positions of the
failed scenarios in ascending order, and the names of the scenarios by position. -/
structure FeatureSummary where
  counts : Counts := {}
  failed : List Nat := []
  index : List (Option String) := []
  deriving DecidableEq, Repr, Inhabited

/-- A feature in a tree, with what the last tally derived. -/
structure FeatureEntry where
  uri : Option String
  header : Header
  scenarios : Name.Family ScenarioEntry := {}
  summary : FeatureSummary := {}
  deriving DecidableEq, Repr, Inhabited

namespace FeatureEntry

/-- What was recorded for the feature. -/
def content (f : FeatureEntry) : Feature :=
  { uri := f.uri
    header := f.header
    scenarios := f.scenarios.values.map ScenarioEntry.content }

/-- The base of a feature's name: its identifier or name, made safe. -/
def base (f : FeatureEntry) : String := Name.safe f.header.declared

/-- The base of a scenario's name within a feature: its identifier or name, made safe, without the base
of the feature and a semicolon in front, unless nothing would be left. -/
def scenarioBase (feature scenario : Header) : String :=
  let own := Name.safe scenario.declared
  match (Name.safe feature.declared ++ ";").toList.isPrefixOf? own.toList with
  | some (c :: rest) => String.ofList (c :: rest)
  | _ => own

/-- Make sure that the scenario at a position has a name. -/
def nameScenario (f : FeatureEntry) (i : Nat) : FeatureEntry :=
  { f with scenarios := f.scenarios.request (fun e => scenarioBase f.header e.content.header) i }

/-- Make sure that every scenario has a name. -/
def nameScenarios (f : FeatureEntry) : FeatureEntry :=
  { f with scenarios := f.scenarios.labelAll fun e => scenarioBase f.header e.content.header }

end FeatureEntry

/-- Scenarios that share a tag. Members and failed members stand in tree order, each once, and the
counters are the sum of the members' counters. -/
structure TagGroup where
  name : String
  members : List ScenarioId := []
  counts : Counts := {}
  failed : List ScenarioId := []
  deriving DecidableEq, Repr, Inhabited

/-- The name of a tag as it stands in a path. -/
def TagGroup.safeName (g : TagGroup) : String := Name.safe g.name

/-- What a tally derives for a tree: the sum of its features' counters, the failed scenarios in tree
order, the names of the features by position, and the groups by tag in ascending order of names. -/
structure TreeSummary where
  counts : Counts := {}
  failed : List ScenarioId := []
  index : List (Option String) := []
  tags : List TagGroup := []
  deriving DecidableEq, Repr, Inhabited

/-- The results of one or more documents: the features in order of arrival, and what the last tally
derived. -/
structure Tree where
  features : Name.Family FeatureEntry := {}
  summary : TreeSummary := {}
  deriving DecidableEq, Repr, Inhabited

namespace Tree

/-- What was recorded, free of names and of anything derived. -/
def content (t : Tree) : List Feature := t.features.values.map FeatureEntry.content

/-- The feature at a position. -/
def feature? (t : Tree) (i : Nat) : Option FeatureEntry := t.features.get? i

/-- The scenario at a position. -/
def scenario? (t : Tree) (id : ScenarioId) : Option ScenarioEntry :=
  (t.feature? id.feature).bind fun f => f.scenarios.get? id.scenario

/-- The scenarios of one feature with their positions. -/
def featureScenarios (f : FeatureEntry) (i : Nat) : List (ScenarioId × ScenarioEntry) :=
  f.scenarios.values.zipIdx.map fun (e, j) => (⟨i, j⟩, e)

/-- Every scenario with its position, in tree order. -/
def scenarios (t : Tree) : List (ScenarioId × ScenarioEntry) :=
  t.features.values.zipIdx.flatMap fun (f, i) => featureScenarios f i

/-- Positions of the features read from a document; a rerun of it makes several. -/
def featuresByUri (t : Tree) (uri : String) : List Nat :=
  (t.features.values.zipIdx.filter fun (f, _) => f.uri == some uri).map (·.2)

/-! ## Growing the tree -/

/-- Append an empty feature. -/
def addFeature (t : Tree) (uri : Option String) (header : Header) : Tree :=
  { t with features := t.features.push { uri, header } }

/-- Append a scenario to a feature, if there is one at the position. -/
def addScenario (t : Tree) (i : Nat) (s : Scenario) : Tree :=
  { t with features := t.features.modify i fun f =>
      { f with scenarios := f.scenarios.push { content := s } } }

/-- Change what is recorded for a scenario, if there is one at the position. -/
def modifyScenario (t : Tree) (id : ScenarioId) (g : Scenario → Scenario) : Tree :=
  { t with features := t.features.modify id.feature fun f =>
      { f with scenarios := f.scenarios.modify id.scenario fun e =>
          { e with content := g e.content } } }

/-! ## Names on request -/

/-- Make sure that the feature at a position has a name. -/
def nameFeature (t : Tree) (i : Nat) : Tree :=
  { t with features := t.features.request FeatureEntry.base i }

/-- Make sure that the scenario at a position has a name; its feature need not get one. -/
def nameScenario (t : Tree) (id : ScenarioId) : Tree :=
  { t with features := t.features.modify id.feature (·.nameScenario id.scenario) }

/-- Make sure that a scenario and its feature have names, the feature first. -/
def namePath (t : Tree) (id : ScenarioId) : Tree :=
  (t.nameFeature id.feature).nameScenario id

/-- The name assigned to the feature at a position. -/
def featureName? (t : Tree) (i : Nat) : Option String := t.features.name? i

/-- The name assigned to the scenario at a position. -/
def scenarioName? (t : Tree) (id : ScenarioId) : Option String :=
  (t.feature? id.feature).bind fun f => f.scenarios.name? id.scenario

end Tree

end ScenarioResults
