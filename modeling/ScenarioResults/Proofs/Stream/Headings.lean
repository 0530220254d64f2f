import ScenarioResults.Proofs.Stream.Cargo
import ScenarioResults.Proofs.Tree.Headings
import ScenarioResults.Proofs.Tree.Reachable

/-!
# Names do not depend on results

Of all that a stream tells, the headings of features and scenarios alone decide on names. Two runs
whose streams have the same headings in the same order give the same names to the same positions, in
whatever else they differ and however strictly their events are ordered; so a scenario of one run has
its counterpart at the same position of the other (`names_of_headings`).

## Shape of the proof

An accepted event extends the headings of the tree by its own and assigns no name; an item that joins
a scenario leaves the header alone (`headings_of_accepts`, `unnamed_of_accepts`). So what the events
of a run have in headings the tree has before its tally, and no names (`headings_processAll`). From
there the tally takes both trees to the same names (`Tree.SameHeadings.tally`).
-/

namespace ScenarioResults

/-- What identifies a feature or a scenario: its identifier or its name. -/
inductive Heading where
  | feature (declared : String)
  | scenario (declared : String)
  deriving DecidableEq, Repr

/-- The heading that an event brings, if it opens a feature or a scenario. -/
def Event.heading? : Event → Option Heading
  | .feature header => some (.feature header.declared)
  | .scenario header => some (.scenario header.declared)
  | _ => none

/-- A feature comes behind the others, and a scenario behind the others of the last feature. -/
def Heading.extend (headings : List (String × List String)) :
    Heading → List (String × List String)
  | .feature declared => headings ++ [(declared, [])]
  | .scenario declared =>
    headings.modify (headings.length - 1) fun f => (f.1, f.2 ++ [declared])

namespace Stream

open Builder (Accepts Yields)

variable {σ τ : Type} [AttachmentStore σ] [AttachmentStore τ] {b b' : Builder σ} {e : Event}

/-- A scenario has its own header, whatever it adopts. -/
theorem header_adopted (o : Open) (header : Header) : (o.adopted header).header = header := by
  cases o <;> rfl

/-- An item leaves the header of a scenario. -/
theorem header_onScenario (item : Item) (s : Scenario) : (item.onScenario s).header = s.header := by
  cases item <;> rfl

/-- Events that yield items bring no heading. -/
theorem heading?_of_yields {item : Item} (h : Yields b e item b') : e.heading? = none := by
  cases h <;> rfl

/-- An accepted event extends the headings of the tree by its own. -/
theorem headings_of_accepts (h : Accepts b e b') (hb : AtEnd b) :
    b'.tree.headings = e.heading?.toList.foldl Heading.extend b.tree.headings := by
  cases h with
  | feature => exact Tree.headings_addFeature _ _ _
  | @scenario header i _ hfeature =>
      have hlast : i = b.tree.headings.length - 1 := by
        have := hb.last i hfeature
        rw [Tree.headings, List.length_map]
        omega
      rw [Tree.headings_addScenario, header_adopted, hlast]
      rfl
  | hold hyields =>
      rw [heading?_of_yields hyields]
      exact congrArg Tree.headings hyields.same.2
  | @record _ _ item id hyields =>
      rw [heading?_of_yields hyields]
      exact Tree.headings_modifyScenario (header_onScenario item) b.tree id
  | documentStart | background | step | binding | write | outline | examples | endOfDocument => rfl

/-- An accepted event assigns no name. -/
theorem unnamed_of_accepts (h : Accepts b e b') (hb : b.tree.Unnamed) : b'.tree.Unnamed := by
  cases h with
  | feature => exact hb.addFeature _ _
  | scenario => exact hb.modify _ fun f hf => hf.push _
  | hold hyields =>
      rw [hyields.same.2]
      exact hb
  | @record _ _ item id =>
      exact hb.modify id.feature fun f hf => hf.modify id.scenario fun e =>
        { e with content := item.onScenario e.content }
  | documentStart | background | step | binding | write | outline | examples | endOfDocument =>
      exact hb

/-- An accepted run extends the headings of the tree by those of its events and assigns no name. -/
theorem headings_processAll {es : List Event} (hb : AtEnd b) (hn : b.tree.Unnamed)
    (h : (b.processAll es).error = none) :
    (b.processAll es).builder.tree.headings =
        (es.filterMap Event.heading?).foldl Heading.extend b.tree.headings ∧
      (b.processAll es).builder.tree.Unnamed := by
  -- the headings and the lack of names are carried from event to event together
  induction es generalizing b with
  | nil => exact ⟨rfl, hn⟩
  | cons e es ih =>
      rw [Builder.processAll, Builder.error_andThen] at h
      obtain ⟨hfirst, hrest⟩ := h
      have haccepts := Builder.accepts_process hfirst
      obtain ⟨hheadings, hunnamed⟩ :=
        ih (atEnd_process hb e) (unnamed_of_accepts haccepts hn) hrest
      rw [Builder.processAll, Builder.builder_andThen hfirst]
      refine ⟨?_, hunnamed⟩
      rw [hheadings, headings_of_accepts haccepts hb, List.filterMap_cons]
      cases e.heading? <;> rfl

/-- The tree of a fresh builder has the headings of the accepted events, and no names. -/
theorem headings_new {settings : Settings} {store : σ} {es : List Event}
    (h : ((Builder.new settings store).processAll es).error = none) :
    ((Builder.new settings store).processAll es).builder.tree.headings =
        (es.filterMap Event.heading?).foldl Heading.extend [] ∧
      ((Builder.new settings store).processAll es).builder.tree.Unnamed :=
  headings_processAll (atEnd_new settings store) Tree.unnamed_empty h

/-- Two accepted runs whose events bring the same headings are finished with the same names at the
same positions, and counterparts stand at the same positions. The settings, the stores and all other
events may differ, and of the headings all but what identifies them. -/
theorem names_of_headings {settings settings' : Settings} {store : σ} {store' : τ}
    {es es' : List Event} {t u : Tree}
    (hes : ((Builder.new settings store).processAll es).error = none)
    (hes' : ((Builder.new settings' store').processAll es').error = none)
    (h : es.filterMap Event.heading? = es'.filterMap Event.heading?)
    (ht : ((Builder.new settings store).processAll es).builder.finish = .done t)
    (hu : ((Builder.new settings' store').processAll es').builder.finish = .done u) :
    t.NamedAlike u := by
  obtain ⟨hheadings, hunnamed⟩ := headings_new hes
  obtain ⟨hheadings', hunnamed'⟩ := headings_new hes'
  -- before the tally both trees have the same headings and no names, so the tallies agree on names
  have hsame := Tree.sameHeadings_of_unnamed hunnamed hunnamed' (by rw [hheadings, hheadings', h])
  have hreach := (Tree.reachable_new settings store).processAll es
  have hreach' := (Tree.reachable_new settings' store').processAll es'
  exact (hsame.tally ht hu).namedAlike (Tree.tallied_of_done hreach.sound ht)
    (Tree.tallied_of_done hreach'.sound hu)

/-- A scenario is declared twice. In the strict run it passes both times; in the lenient one its
background fails the first time, and a step goes without a result before the second time. Documents,
tags and lines differ, too. -/
theorem names_of_headings_rerun :
    let es : List Event :=
      [.documentStart "a.feature", .feature { id := some "f", name := "x" },
        .scenario { name := "s", tags := [{ name := "@x" }] }, .step {},
        .result { outcome := .passed }, .scenario { name := "s" }, .endOfDocument]
    let es' : List Event :=
      [.documentStart "b.feature", .feature { id := some "f", name := "x", line := some 3 },
        .background {}, .step {}, .result { outcome := .failed }, .scenario { name := "s" },
        .after {} { outcome := .passed }, .step {}, .write "text", .scenario { name := "s" }]
    let run := (Builder.new {} ({} : Shelf)).processAll es
    let rerun := (Builder.new { strict := false } ({} : Shelf)).processAll es'
    let t := run.builder.finish.value
    let u := rerun.builder.finish.value
    run.error = none ∧ rerun.error = none ∧ run.builder.finish = .done t ∧
      rerun.builder.finish = .done u ∧ t.NamedAlike u ∧
        t.summary.counts = { pass := 2 } ∧ u.summary.counts = { pass := 1, fail := 1 } ∧
          t.scenarioName? ⟨0, 1⟩ = some "s_2" ∧ (t.counterpart? ⟨0, 1⟩ u).1 = some ⟨0, 1⟩ := by
  intro es es' run rerun t u
  have hrun : run.error = none := by decide +kernel
  have hrerun : rerun.error = none := by decide +kernel
  have ht : run.builder.finish = .done t := by decide +kernel
  have hu : rerun.builder.finish = .done u := by decide +kernel
  have hsame : es.filterMap Event.heading? = es'.filterMap Event.heading? := by decide
  refine ⟨hrun, hrerun, ht, hu, names_of_headings hrun hrerun hsame ht hu, ?_, ?_, ?_, ?_⟩ <;>
    decide +kernel

end Stream

end ScenarioResults
