import ScenarioResults.Proofs.Tree.Precedence

/-!
# Why a scenario failed

A scenario that failed is explained by its first hook or step that failed: setup hooks come first,
then the steps of the background, the other steps and the teardown hooks. That it failed was rolled
up from all outcomes, the background counting as one; the explanation is searched in four lists, one
after the other. The two agree, and so no failure is without an explanation
(`ScenarioEntry.explained_of_tally`).
-/

namespace ScenarioResults

/-- A setup or teardown hook of a scenario, or a step of it or of its background. -/
inductive Piece where
  | hook (h : Hook)
  | step (s : Step)

namespace Piece

variable {p : Piece} {message : String}

/-- How the hook or step went. -/
def verdict : Piece → Verdict
  | hook h => h.verdict
  | step s => s.verdict

/-- It failed or was undefined. -/
def Fails (p : Piece) : Prop := p.verdict.outcome = .failed ∨ p.verdict.outcome = .undefined

instance : DecidablePred Fails := fun _ => inferInstanceAs (Decidable (_ ∨ _))

/-- The message explains why the hook or step failed. An undefined step names itself; a failed step
and a failed or undefined hook give the recorded message, which may be missing. One that passed or
skipped has no such message. -/
inductive Explains : Piece → String → Prop
  | undefinedStep {s : Step} (h : s.verdict.outcome = .undefined) :
      Explains (.step s) ("Step \"" ++ s.name ++ "\" is undefined")
  | failedStep {s : Step} (h : s.verdict.outcome = .failed) :
      Explains (.step s) (s.verdict.message.getD "")
  | hook {h : Hook} (hfails : (Piece.hook h).Fails) : Explains (.hook h) (h.verdict.message.getD "")

/-- What is said about the hook or step where it explains a failure. -/
def explanation : Piece → String
  | hook h => h.explanation?.getD ""
  | step s => s.explanation

/-- A piece fails when its outcome counts as a failure. -/
theorem fails_iff : p.Fails ↔ p.verdict.outcome.isFailure = true := Outcome.isFailure_iff.symm

/-- Whether a piece fails is read off its outcome. -/
theorem decide_fails (p : Piece) : decide p.Fails = p.verdict.outcome.isFailure := by
  rw [Bool.eq_iff_iff, decide_eq_true_iff, fails_iff]

/-- The pieces that explain are those that fail. -/
theorem explains_iff : p.Explains message ↔ p.Fails ∧ p.explanation = message := by
  constructor
  · intro h
    cases h with
    | undefinedStep h => exact ⟨Or.inr h, by rw [explanation, Step.explanation, h]⟩
    | failedStep h => exact ⟨Or.inl h, by rw [explanation, Step.explanation, h]⟩
    | hook hfails =>
        refine ⟨hfails, ?_⟩
        rw [explanation, Hook.explanation?]
        exact congrArg (Option.getD · "") (if_pos (fails_iff.mp hfails))
  · rintro ⟨hfails, rfl⟩
    cases p with
    | hook h =>
        have hmessage : h.explanation? = h.verdict.message := if_pos (fails_iff.mp hfails)
        rw [explanation, hmessage]
        exact .hook hfails
    | step s =>
        rcases hfails with hfailed | hundefined
        · have hmessage : s.explanation = s.verdict.message.getD "" := by
            rw [Step.explanation, show s.verdict.outcome = .failed from hfailed]
          rw [explanation, hmessage]
          exact .failedStep hfailed
        · have hmessage : s.explanation = "Step \"" ++ s.name ++ "\" is undefined" := by
            rw [Step.explanation, show s.verdict.outcome = .undefined from hundefined]
          rw [explanation, hmessage]
          exact .undefinedStep hundefined

end Piece

namespace Scenario

variable {s : Scenario} {message : String}

/-- The hooks and steps of a scenario in the order in which failures are explained. -/
def pieces (s : Scenario) : List Piece :=
  s.before.map .hook ++ s.backgroundSteps.map .step ++ s.steps.map .step ++ s.after.map .hook

/-- The verdicts of a scenario are those of its pieces, in the same order. -/
theorem verdicts_eq_map_pieces (s : Scenario) : s.verdicts = s.pieces.map Piece.verdict := by
  simp only [verdicts, pieces, List.map_append, List.map_map]
  rfl

/-- The search through hooks finds the first that fails. -/
theorem hookExplanation?_eq (hooks : List Hook) : hookExplanation? hooks =
    ((hooks.map Piece.hook).find? (·.Fails)).map Piece.explanation := by
  rw [hookExplanation?, List.find?_map, Option.map_map]
  simp only [Function.comp_def, Piece.decide_fails]
  rfl

/-- The search through steps finds the first that fails. -/
theorem stepExplanation?_eq (steps : List Step) : stepExplanation? steps =
    ((steps.map Piece.step).find? (·.Fails)).map Piece.explanation := by
  rw [stepExplanation?, List.find?_map, Option.map_map]
  simp only [Function.comp_def, Piece.decide_fails]
  rfl

/-- The four searches are one. -/
theorem explanation?_eq (s : Scenario) :
    s.explanation? = (s.pieces.find? (·.Fails)).map Piece.explanation := by
  simp only [explanation?, pieces, hookExplanation?_eq, stepExplanation?_eq, List.find?_append,
    Option.map_or]

/-- The explanation is that of the first piece that fails. -/
theorem explanation?_eq_some_iff : s.explanation? = some message ↔
    ∃ earlier p later, s.pieces = earlier ++ p :: later ∧ (∀ q ∈ earlier, ¬ q.Fails) ∧
      p.Explains message := by
  rw [explanation?_eq, Option.map_eq_some_iff]
  simp only [List.find?_eq_some_iff_append, Piece.explains_iff, decide_eq_true_eq,
    Bool.not_eq_true', decide_eq_false_iff_not]
  constructor
  · rintro ⟨p, ⟨hfails, earlier, later, hpieces, hearlier⟩, hmessage⟩
    exact ⟨earlier, p, later, hpieces, hearlier, hfails, hmessage⟩
  · rintro ⟨earlier, p, later, hpieces, hearlier, hfails, hmessage⟩
    exact ⟨p, ⟨hfails, earlier, later, hpieces, hearlier⟩, hmessage⟩

/-- Nothing is explained exactly when no piece fails. -/
theorem explanation?_eq_none_iff : s.explanation? = none ↔ ∀ p ∈ s.pieces, ¬ p.Fails := by
  rw [explanation?_eq, Option.map_eq_none_iff, List.find?_eq_none]
  simp only [decide_eq_true_eq]

/-- Pieces that do not fail contribute nothing. -/
theorem explanation?_congr {d : Scenario}
    (h : d.pieces.filter (·.Fails) = s.pieces.filter (·.Fails)) : d.explanation? = s.explanation? := by
  rw [explanation?_eq, explanation?_eq, ← List.head?_filter, ← List.head?_filter, h]

end Scenario

namespace ScenarioEntry

variable {e e' : ScenarioEntry}

/-- A tallied scenario failed exactly when a piece of it did. -/
theorem isFailed_iff_of_tally (h : e.tally = .done e') :
    e'.isFailed = true ↔ ∃ p ∈ e.content.pieces, p.Fails := by
  have hflags := (stands_of_tally h).flags
  rw [content_of_tally h, Scenario.verdicts_eq_map_pieces, List.map_map] at hflags
  rw [isFailed, hflags, rollup_failed_iff]
  simp [Piece.Fails]

/-- The search alone explains as much as it does where the scenario is known to have failed. -/
theorem details?_of_tally (h : e.tally = .done e') : e'.details? = e.content.explanation? := by
  rw [details?, content_of_tally h]
  split
  · rfl
  · next hpassed =>
    rw [isFailed_iff_of_tally h] at hpassed
    rw [eq_comm, Scenario.explanation?_eq_none_iff]
    exact fun p hp hfails => hpassed ⟨p, hp, hfails⟩

/-- A tallied scenario has an explanation exactly when it failed, which is when some hook or step of
it failed. It is the one of the first of them, and those that passed or skipped contribute nothing. -/
theorem explained_of_tally (h : e.tally = .done e') :
    (e'.details?.isSome ↔ e'.isFailed = true) ∧
      (e'.isFailed = true ↔ ∃ p ∈ e.content.pieces, p.Fails) ∧
      (∀ message, e'.details? = some message ↔
        ∃ earlier p later, e.content.pieces = earlier ++ p :: later ∧
          (∀ q ∈ earlier, ¬ q.Fails) ∧ p.Explains message) ∧
      ∀ d d' : ScenarioEntry, d.tally = .done d' →
        d.content.pieces.filter (·.Fails) = e.content.pieces.filter (·.Fails) →
          d'.details? = e'.details? := by
  have hfailed := isFailed_iff_of_tally h
  have hdetails := details?_of_tally h
  refine ⟨?_, hfailed, fun message => ?_, fun d d' hd hsame => ?_⟩
  · rw [hfailed, hdetails, Option.isSome_iff_ne_none, ne_eq, Scenario.explanation?_eq_none_iff]
    simp
  · rw [hdetails, Scenario.explanation?_eq_some_iff]
  · rw [hdetails, details?_of_tally hd, Scenario.explanation?_congr hsame]

/-- The undefined step of the background explains the failure: the hook before it only skipped, and
the step behind it failed later. -/
theorem explained_of_tally_background :
    let unrun : Hook := .settle {} { outcome := .skipped, message := "not run" }
    let unknown : Step := .settle { name := "pay" } none { outcome := .undefined, message := "m" }
    let late : Step := .settle {} none { outcome := .failed, message := "late" }
    let e : ScenarioEntry :=
      { content :=
          { header := {}
            background := some
              { keyword := "Background", name := "", line := none, steps := [unknown] }
            before := [unrun]
            steps := [late] } }
    e.tally = .done e.tally.value ∧ (Piece.step unknown).Explains "Step \"pay\" is undefined" ∧
      e.tally.value.details? = some "Step \"pay\" is undefined" := by
  intro unrun unknown late e
  have hdone : e.tally = .done e.tally.value := by decide
  -- the hook was not run, which is no failure, so the step of the background comes first
  have hexplains : (Piece.step unknown).Explains "Step \"pay\" is undefined" := .undefinedStep rfl
  obtain ⟨-, -, hfirst, -⟩ := explained_of_tally hdone
  exact ⟨hdone, hexplains, (hfirst _).mpr
    ⟨[.hook unrun], .step unknown, [.step late], rfl, by decide, hexplains⟩⟩

end ScenarioEntry

end ScenarioResults
