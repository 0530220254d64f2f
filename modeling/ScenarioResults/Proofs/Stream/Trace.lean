import Mathlib.Tactic.Common
import ScenarioResults.Event

/-!
# Reading a trace

What a list of events says about itself, without a builder: its last structural event, whether a
feature is open, and whether a step is open or bound. `Legal` states from these readings when an
event may follow a list of earlier ones.

## Shape of the readings

Each reading comes with one lemma about a list that is longer by one event. Runs are followed event
by event, so nothing else about lists is needed.
-/

namespace ScenarioResults.Stream

/-- Whether the event opens or closes a document or opens a feature. -/
def isBoundary : Event → Bool
  | .documentStart _ | .feature _ | .endOfDocument => true
  | _ => false

/-- Whether the event resolves a step. -/
def isResult : Event → Bool
  | .result _ => true
  | _ => false

/-- The last event that satisfies the test. -/
def last? (p : Event → Bool) (before : List Event) : Option Event := (before.filter p).getLast?

/-- The last structural event. -/
abbrev lastStructural? (before : List Event) : Option Event := last? Event.isStructural before

/-- A feature is open: of the events that open or close a document or open a feature, the last one
opens a feature. -/
def FeatureOpen (before : List Event) : Prop :=
  ∃ header, last? isBoundary before = some (.feature header)

/-- The last structural event opens a background. -/
def BackgroundOpen (before : List Event) : Prop :=
  ∃ header, lastStructural? before = some (.background header)

/-- The last structural event opens a background or a scenario. -/
def TakesItems (before : List Event) : Prop :=
  BackgroundOpen before ∨ ∃ header, lastStructural? before = some (.scenario header)

/-- The event neither opens nor closes a context nor resolves a step. -/
def Passing (e : Event) : Prop := e.isStructural = false ∧ isResult e = false

/-- A step is open: one was declared after the last structural event, and no result came since. -/
def StepOpen (before : List Event) : Prop :=
  ∃ earlier header since, before = earlier ++ .step header :: since ∧ ∀ e ∈ since, Passing e

/-- A step is open and a binding came since it was declared. -/
def StepBound (before : List Event) : Prop :=
  ∃ earlier header between glue since,
    before = earlier ++ .step header :: (between ++ .binding glue :: since) ∧
      ∀ e ∈ between ++ since, Passing e

/-- The event may follow the earlier ones. In strict ordering no step or structural event overtakes
an open step, except for the end of the document, and no step is bound twice. -/
def Legal (strict : Bool) (before : List Event) : Event → Prop
  | .documentStart _ =>
    (∀ uri, lastStructural? before ≠ some (.documentStart uri)) ∧ (strict → ¬ StepOpen before)
  | .feature _ => strict → ¬ StepOpen before
  | .background _ =>
    FeatureOpen before ∧ ¬ BackgroundOpen before ∧ (strict → ¬ StepOpen before)
  | .scenario _ => FeatureOpen before ∧ (strict → ¬ StepOpen before)
  | .step _ => TakesItems before ∧ (strict → ¬ StepOpen before)
  | .binding _ => StepOpen before ∧ (strict → ¬ StepBound before)
  | .result _ => StepOpen before
  | .before .. | .after .. | .embedding .. => TakesItems before
  | .write _ | .outline _ | .examples _ | .endOfDocument => True
  | .syntaxError _ => False

/-- Each event may follow those before it. -/
def Conforms (strict : Bool) (events : List Event) : Prop :=
  ∀ (i : ℕ) (h : i < events.length), Legal strict (events.take i) events[i]

/-! ## One event more -/

variable {before : List Event} {e : Event}

/-- The last event counts if it satisfies the test. -/
theorem last?_concat (p : Event → Bool) (before : List Event) (e : Event) :
    last? p (before ++ [e]) = if p e then some e else last? p before := by
  by_cases h : p e = true <;> simp [last?, h]

theorem not_stepOpen_nil : ¬ StepOpen [] := by
  rintro ⟨earlier, header, since, h, -⟩
  simp at h

/-- A bound step is open. -/
theorem StepBound.stepOpen (h : StepBound before) : StepOpen before := by
  obtain ⟨earlier, header, between, glue, since, rfl, hpass⟩ := h
  refine ⟨earlier, header, between ++ .binding glue :: since, rfl, fun e he => ?_⟩
  simp only [List.mem_append, List.mem_cons] at he hpass
  rcases he with he | rfl | he
  · exact hpass e (Or.inl he)
  · exact ⟨rfl, rfl⟩
  · exact hpass e (Or.inr he)

/-- A list ends in an open step when its last event declares one or lets the open one pass. -/
theorem stepOpen_concat :
    StepOpen (before ++ [e]) ↔ (∃ header, e = .step header) ∨ (StepOpen before ∧ Passing e) := by
  constructor
  · rintro ⟨earlier, header, since, h, hpass⟩
    -- the last event is the declaration itself or one that came since
    rcases List.eq_nil_or_concat since with rfl | ⟨since, x, rfl⟩
    · exact Or.inl ⟨header, (List.append_inj' h rfl).2 |> List.singleton_inj.mp⟩
    · rw [List.concat_eq_append, ← List.cons_append, ← List.append_assoc] at h
      obtain ⟨rfl, hx⟩ := List.append_inj' h rfl
      obtain rfl := List.singleton_inj.mp hx
      simp only [List.concat_eq_append, List.mem_append, List.mem_singleton] at hpass
      exact Or.inr ⟨⟨earlier, header, since, rfl, fun y hy => hpass y (Or.inl hy)⟩,
        hpass e (Or.inr rfl)⟩
  · rintro (⟨header, rfl⟩ | ⟨⟨earlier, header, since, rfl, hpass⟩, he⟩)
    · exact ⟨before, header, [], rfl, by simp⟩
    · refine ⟨earlier, header, since ++ [e], by simp, fun y hy => ?_⟩
      rcases List.mem_append.mp hy with hy | hy
      · exact hpass y hy
      · rw [List.mem_singleton.mp hy]
        exact he

/-- A list ends in a bound step when its last event binds an open one or lets a bound one pass. -/
theorem stepBound_concat :
    StepBound (before ++ [e]) ↔
      (StepOpen before ∧ ∃ glue, e = .binding glue) ∨ (StepBound before ∧ Passing e) := by
  constructor
  · rintro ⟨earlier, header, between, glue, since, h, hpass⟩
    rcases List.eq_nil_or_concat since with rfl | ⟨since, x, rfl⟩
    · rw [← List.cons_append, ← List.append_assoc] at h
      obtain ⟨rfl, he⟩ := List.append_inj' h rfl
      simp only [List.append_nil] at hpass
      exact Or.inl ⟨⟨earlier, header, between, rfl, hpass⟩, glue, List.singleton_inj.mp he⟩
    · rw [List.concat_eq_append, ← List.cons_append, ← List.append_assoc, ← List.cons_append,
        ← List.append_assoc] at h
      obtain ⟨rfl, hx⟩ := List.append_inj' h rfl
      obtain rfl := List.singleton_inj.mp hx
      simp only [List.concat_eq_append, List.mem_append, List.mem_singleton] at hpass
      refine Or.inr ⟨⟨earlier, header, between, glue, since, by simp, fun y hy => ?_⟩,
        hpass e (Or.inr (Or.inr rfl))⟩
      rcases List.mem_append.mp hy with hy | hy
      · exact hpass y (Or.inl hy)
      · exact hpass y (Or.inr (Or.inl hy))
  · rintro (⟨⟨earlier, header, since, rfl, hpass⟩, glue, rfl⟩ |
      ⟨⟨earlier, header, between, glue, since, rfl, hpass⟩, he⟩)
    · exact ⟨earlier, header, since, glue, [], by simp, by simpa using hpass⟩
    · refine ⟨earlier, header, between, glue, since ++ [e], by simp, fun y hy => ?_⟩
      rw [← List.append_assoc, List.mem_append] at hy
      rcases hy with hy | hy
      · exact hpass y hy
      · rw [List.mem_singleton.mp hy]
        exact he

/-- A feature is open when the last event opens one or does not end the open one. -/
theorem featureOpen_concat :
    FeatureOpen (before ++ [e]) ↔
      (∃ header, e = .feature header) ∨ (FeatureOpen before ∧ isBoundary e = false) := by
  unfold FeatureOpen
  rw [last?_concat]
  cases e <;> simp [isBoundary]

theorem conforms_nil (strict : Bool) : Conforms strict [] := fun i h => by simp at h

/-- A list conforms when all but the last event do, and the last is legal behind them. -/
theorem conforms_concat {strict : Bool} :
    Conforms strict (before ++ [e]) ↔ Conforms strict before ∧ Legal strict before e := by
  constructor
  · intro h
    refine ⟨fun i hi => ?_, by simpa using h before.length (by simp)⟩
    -- what comes before an earlier event is the same in both lists
    have hlegal := h i (by simp; omega)
    rwa [List.take_append_of_le_length (Nat.le_of_lt hi), List.getElem_append_left hi] at hlegal
  · rintro ⟨hbefore, he⟩ i hi
    by_cases hlt : i < before.length
    · rw [List.take_append_of_le_length (Nat.le_of_lt hlt), List.getElem_append_left hlt]
      exact hbefore i hlt
    · obtain rfl : i = before.length := by
        rw [List.length_append, List.length_singleton] at hi
        omega
      simpa using he

end ScenarioResults.Stream
