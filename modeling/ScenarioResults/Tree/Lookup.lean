import ScenarioResults.Text.Blank
import ScenarioResults.Tree.Basic

/-!
# Looking up nodes

Reports link to nodes by paths of safe names: `cucumber` is the root, `cucumber/<feature>` a feature,
`cucumber/<feature>/<scenario>` a scenario and `cucumber/@tag` a group of scenarios. The root segment
may be left out, and slashes at the ends of a path do not matter. Lookups go through the indices of the
last tally.
-/

namespace ScenarioResults

/-- What a path leads to. -/
inductive Target where
  | root
  | feature (i : Nat)
  | scenario (id : ScenarioId)
  | tag (name : String)
  deriving DecidableEq, Repr, Inhabited

/-- The first segment of a path from the root. -/
def rootName : String := "cucumber"

/-- A path without the slashes at its ends and without the root segment. -/
def relativePath (path : String) : List Char :=
  let path := Text.strip (· == '/') path.toList
  if path = rootName.toList then []
  else ((rootName.toList ++ ['/']).isPrefixOf? path).getD path

/-- The position of the scenario with the given name. -/
def FeatureEntry.position? (f : FeatureEntry) (name : String) : Option Nat :=
  f.summary.index.idxOf? (some name)

namespace Tree

/-- The position of the feature with the given name. -/
def featureByName? (t : Tree) (name : String) : Option Nat :=
  (t.summary.index.idxOf? (some name)).filter fun i => (t.feature? i).isSome

/-- The position of the scenario with the given name in the feature with the given name. -/
def scenarioByName? (t : Tree) (feature scenario : String) : Option ScenarioId := do
  let i ← t.featureByName? feature
  let f ← t.feature? i
  let j ← f.position? scenario
  let _ ← f.scenarios.get? j
  return ⟨i, j⟩

/-- The group of the tag with exactly this name. -/
def tagGroup? (t : Tree) (name : String) : Option TagGroup :=
  t.summary.tags.find? (·.name == name)

/-- The group of the tag with this name or, when there is none, the first one with this safe name. -/
def tagGroupBySafeName? (t : Tree) (name : String) : Option TagGroup :=
  (t.tagGroup? name).or (t.summary.tags.find? (·.safeName == name))

/-- Follow a path. A single segment that starts with `@` names a tag first and a feature second. -/
def find (t : Tree) (path : String) : Option Target :=
  let relative := relativePath path
  if relative.isEmpty then some .root
  else
    match relative.splitOn '/' with
    | [segment] =>
      let name := String.ofList segment
      let feature := (t.featureByName? name).map Target.feature
      if segment.head? = some '@' then
        ((t.tagGroupBySafeName? name).map fun g => .tag g.name).or feature
      else feature
    | [feature, scenario] =>
      (t.scenarioByName? (String.ofList feature) (String.ofList scenario)).map Target.scenario
    | _ => none

/-- The counters at a node. -/
def countsAt? (t : Tree) : Target → Option Counts
  | .root => some t.summary.counts
  | .feature i => (t.feature? i).map (·.summary.counts)
  | .scenario id => (t.scenario? id).map ScenarioEntry.counts
  | .tag name => (t.tagGroup? name).map TagGroup.counts

/-- The assigned names of a feature and a scenario, joined by a slash. -/
def path? (t : Tree) (id : ScenarioId) : Option String := do
  let feature ← t.featureName? id.feature
  let scenario ← t.scenarioName? id
  return feature ++ "/" ++ scenario

/-- The declared names of a feature and a scenario, joined for readers. -/
def fullName? (t : Tree) (id : ScenarioId) : Option String := do
  let feature ← t.feature? id.feature
  let scenario ← t.scenario? id
  return feature.header.name ++ " \u01c2 " ++ scenario.content.header.name

end Tree

end ScenarioResults
