import ScenarioResults.Tree.Tally

/-!
# Merging trees

Merging only appends: every feature of the incoming tree becomes one more feature of the base, and
nothing is matched or removed. Names assigned in the base stay; a feature brings its name along and
keeps it when it is free. Both trees are tallied, the incoming one before and the base after.
-/

namespace ScenarioResults

/-- What a merge contributed: how many features and scenarios were appended, and the counters of the
incoming tree. -/
structure MergeSummary where
  features : Nat
  scenarios : Nat
  counts : Counts
  deriving DecidableEq, Repr, Inhabited

/-- What a merge leaves behind: the base as it was left, what the merge contributed, if it
completed, and what is told about it. -/
structure Merged where
  tree : Tree
  summary : Option MergeSummary
  notices : List Notice
  deriving DecidableEq, Repr, Inhabited

namespace Tree

/-- Append the features of another tree, without a tally. -/
def append (base incoming : Tree) : Tree :=
  { base with features := base.features.adopt incoming.features }

/-- Append every feature of `incoming` to `base` and tally the result. A merge that stops while the
incoming tree is tallied leaves the base alone; one that stops later leaves the features appended. -/
def merge (base incoming : Tree) : Merged :=
  match incoming.tally with
  | .halted _ => { tree := base, summary := none, notices := [] }
  | .done incoming =>
    match (base.append incoming).tally with
    | .halted tree => { tree, summary := none, notices := [incoming.talliedNotice] }
    | .done tree =>
      let features := incoming.features.size
      let scenarios := incoming.scenarios.length
      { tree
        summary := some { features, scenarios, counts := incoming.summary.counts }
        notices :=
          [incoming.talliedNotice, tree.talliedNotice,
            .merged features scenarios tree.features.size] }

end Tree

/-- A tree that several publishers merge into, one at a time, as the last merge left it. -/
structure SharedTree where
  tree : Tree := {}
  deriving DecidableEq, Repr, Inhabited

namespace SharedTree

/-- Merge a tree into the shared one. The shared tree stays usable when the merge stops. -/
def merge (s : SharedTree) (incoming : Tree) : Merged × SharedTree :=
  let merged := s.tree.merge incoming
  (merged, { tree := merged.tree })

/-- Read from the shared tree. -/
def read {ρ : Type} (s : SharedTree) (view : Tree → ρ) : ρ := view s.tree

end SharedTree

end ScenarioResults
