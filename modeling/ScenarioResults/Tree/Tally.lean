import ScenarioResults.Notice
import ScenarioResults.Tree.Basic

/-!
# Tallies

A tally recomputes everything derived from the recorded content, bottom-up: the standing of every
scenario, the counters and lists of failures of features and tree, the names still missing, the indices
of names and the groups by tag. It reads no derived state of an earlier tally. It stops only when a sum
of durations is out of range, and then leaves what it had computed.
-/

namespace ScenarioResults

/-! ## Scenarios -/

/-- Set the flags from the outcomes, then the time, stopping when the time is out of range. -/
def Standing.refresh (s : Standing) (outcomes : List Outcome) (time : Option Duration) :
    Attempt Standing :=
  let s := { s with flags := rollup outcomes }
  Attempt.require time s fun duration => .done { s with duration }

/-- Total time of a list of verdicts. -/
def totalTime? (verdicts : List Verdict) : Option Duration :=
  Duration.sum? (verdicts.map Verdict.duration)

/-- The outcome of a whole background in place of those of its steps. -/
def Standing.outcome (s : Standing) : Outcome :=
  if s.flags.failed then .failed else if s.flags.skipped then .skipped else .passed

namespace ScenarioEntry

/-- The outcomes that decide how a scenario stands: those of its hooks and steps and, once its
background is tallied, the background's. -/
def outcomes (e : ScenarioEntry) : List Outcome :=
  e.content.before.map (·.verdict.outcome) ++
    (e.content.background.map fun _ => e.background.outcome).toList ++
    e.content.steps.map (·.verdict.outcome) ++
    e.content.after.map (·.verdict.outcome)

/-- The time of a scenario whose background is tallied: hooks and steps, then the background. -/
def time? (e : ScenarioEntry) : Option Duration := do
  let hooks ← totalTime? ((e.content.before ++ e.content.after).map Hook.verdict)
  let steps ← totalTime? (e.content.steps.map Step.verdict)
  let own ← hooks.add? steps
  own.add? (e.content.background.elim Duration.zero fun _ => e.background.duration)

/-- Recompute how the background stands, if there is one. -/
def tallyBackground (e : ScenarioEntry) : Attempt ScenarioEntry :=
  match e.content.background with
  | none => .done e
  | some b =>
    (e.background.refresh (b.steps.map (·.verdict.outcome))
      (totalTime? (b.steps.map Step.verdict))).map fun background => { e with background }

/-- Recompute how a scenario stands, its background first. -/
def tally (e : ScenarioEntry) : Attempt ScenarioEntry :=
  e.tallyBackground.andThen fun e =>
    (e.standing.refresh e.outcomes e.time?).map fun standing => { e with standing }

end ScenarioEntry

/-! ## Features -/

namespace FeatureEntry

/-- Positions of the scenarios that failed. -/
def failedScenarios (f : FeatureEntry) : List Nat :=
  (f.scenarios.values.zipIdx.filter fun (e, _) => e.isFailed).map (·.2)

/-- Recompute a feature: its scenarios, counters, failures, names and index, in this order. -/
def tally (f : FeatureEntry) : Attempt FeatureEntry :=
  ((f.scenarios.attempt ScenarioEntry.tally).map fun scenarios => { f with scenarios }).andThen
    fun f => Attempt.require (Counts.sum? (f.scenarios.values.map ScenarioEntry.counts)) f
      fun counts =>
        let failed := f.failedScenarios
        let f := f.nameScenarios
        .done { f with summary := { counts, failed, index := f.scenarios.labels } }

end FeatureEntry

/-! ## Groups by tag -/

/-- The tag of scenarios that declare no tag of their own. -/
def untagged : String := "@_UNTAGGED_"

/-- The tags that apply to a scenario: its own, or `untagged` when it has none, then the feature's. -/
def effectiveTags (feature scenario : Header) : List String :=
  scenario.tags.map Tag.name ++ (if scenario.tags.isEmpty then [untagged] else []) ++
    feature.tags.map Tag.name

namespace TagGroup

/-- Make a scenario a member, once. -/
def add (g : TagGroup) (id : ScenarioId) (e : ScenarioEntry) : Option TagGroup :=
  if g.members.contains id then some g
  else
    (g.counts.add? e.counts).map fun counts =>
      { g with
        members := g.members ++ [id]
        counts
        failed := if e.isFailed then g.failed ++ [id] else g.failed }

/-- Make a scenario a member of the group of that name, in a list of groups ascending by name. -/
def addTo (id : ScenarioId) (e : ScenarioEntry) (name : String) :
    List TagGroup → Option (List TagGroup)
  | [] => (TagGroup.add { name } id e).map ([·])
  | g :: gs =>
    if name = g.name then (g.add id e).map (· :: gs)
    else if name < g.name then (TagGroup.add { name } id e).map (· :: g :: gs)
    else (addTo id e name gs).map (g :: ·)

end TagGroup

namespace Tree

/-- The tags that apply to the scenario at a position. -/
def tagsOf (t : Tree) (id : ScenarioId) (e : ScenarioEntry) : List String :=
  effectiveTags ((t.feature? id.feature).elim {} FeatureEntry.header) e.content.header

/-- Group the scenarios by the tags that apply to them. -/
def tagGroups (t : Tree) : Option (List TagGroup) :=
  t.scenarios.foldlM
    (fun groups (id, e) => (t.tagsOf id e).foldlM (fun groups name => TagGroup.addTo id e name groups)
      groups)
    []

/-! ## Trees -/

/-- Positions of the scenarios that failed. -/
def failedScenarios (t : Tree) : List ScenarioId :=
  (t.scenarios.filter fun (_, e) => e.isFailed).map (·.1)

/-- Recompute a tree: its features, counters, failures, names, index and groups, in this order. -/
def tally (t : Tree) : Attempt Tree :=
  ((t.features.attempt FeatureEntry.tally).map fun features => { t with features }).andThen
    fun t => Attempt.require (Counts.sum? (t.features.values.map (·.summary.counts))) t
      fun counts =>
        let failed := t.failedScenarios
        let t := { t with features := t.features.labelAll FeatureEntry.base }
        let index := t.features.labels
        let t := { t with summary := { t.summary with counts, failed, index } }
        Attempt.require t.tagGroups t fun tags =>
          .done { t with summary := { t.summary with tags } }

/-- What is told about a completed tally. -/
def talliedNotice (t : Tree) : Notice :=
  .tallied t.features.size t.summary.counts

end Tree

end ScenarioResults
