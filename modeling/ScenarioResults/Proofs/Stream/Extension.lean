import ScenarioResults.Proofs.Stream.Content
import ScenarioResults.Proofs.Stream.Protocol

/-!
# Streams that follow others

A long stream is judged part by part: `ConformsAfter` says that a list of events may follow earlier
ones, and `conformsAfter_append` splits it. Events that take no part in the life of a step, the
asides, are legal wherever items are and change no reading of the trace.

An idle builder without a waiting step treats a stream as a fresh one does, whatever its tree holds:
`Tracks.error_processAll_iff` and `content_processAll_of_idle`.
-/

namespace ScenarioResults.Stream

variable {strict : Bool} {before events xs ys : List Event} {e : Event}

/-! ## Conformance part by part -/

/-- Each event may follow the earlier ones and those in front of it. -/
def ConformsAfter (strict : Bool) (before events : List Event) : Prop :=
  ∀ (i : ℕ) (h : i < events.length), Legal strict (before ++ events.take i) events[i]

@[simp]
theorem conformsAfter_nil : ConformsAfter strict before [] := fun i h => by simp at h

/-- The first event has to be legal, and the others may follow it. -/
theorem conformsAfter_cons :
    ConformsAfter strict before (e :: events) ↔
      Legal strict before e ∧ ConformsAfter strict (before ++ [e]) events := by
  constructor
  · intro h
    refine ⟨?_, fun i hi => ?_⟩
    · have hfirst := h 0 (Nat.succ_pos _)
      rwa [List.take_zero, List.append_nil] at hfirst
    · have hlater := h (i + 1) (Nat.succ_lt_succ hi)
      rwa [List.take_succ_cons, List.append_cons] at hlater
  · rintro ⟨he, hevents⟩ i hi
    cases i with
    | zero =>
        rw [List.take_zero, List.append_nil]
        exact he
    | succ i =>
        rw [List.take_succ_cons, List.append_cons]
        exact hevents i (Nat.lt_of_succ_lt_succ hi)

/-- The first part may follow, and the second part may follow the first. -/
theorem conformsAfter_append :
    ConformsAfter strict before (xs ++ ys) ↔
      ConformsAfter strict before xs ∧ ConformsAfter strict (before ++ xs) ys := by
  induction xs generalizing before with
  | nil => simp
  | cons x xs ih =>
      rw [List.cons_append, conformsAfter_cons, ih, conformsAfter_cons, and_assoc,
        List.append_assoc, List.singleton_append]

/-! ## Events inside a segment -/

/-- The events neither open nor close a context. -/
def AllInner (events : List Event) : Prop := ∀ e ∈ events, e.isStructural = false

/-- Two parts inside a segment are one part inside it. -/
theorem AllInner.append (hx : AllInner xs) (hy : AllInner ys) : AllInner (xs ++ ys) := fun e he =>
  (List.mem_append.mp he).elim (hx e) (hy e)

/-- Events that fail the test leave the last one that satisfies it. -/
theorem last?_append {p : Event → Bool} (h : ∀ e ∈ events, p e = false) :
    last? p (before ++ events) = last? p before := by
  have hnone : events.filter p = [] :=
    List.filter_eq_nil_iff.mpr fun e he => by simp [h e he]
  simp [last?, hnone]

/-- Events inside a segment leave it open to items or not. -/
theorem AllInner.takesItems (h : AllInner events) :
    TakesItems (before ++ events) ↔ TakesItems before := by
  unfold TakesItems BackgroundOpen
  rw [lastStructural?, last?_append h]

/-- They leave an open background open. -/
theorem AllInner.backgroundOpen (h : AllInner events) :
    BackgroundOpen (before ++ events) ↔ BackgroundOpen before := by
  unfold BackgroundOpen
  rw [lastStructural?, last?_append h]

/-- They leave an open feature open. -/
theorem AllInner.featureOpen (h : AllInner events) :
    FeatureOpen (before ++ events) ↔ FeatureOpen before := by
  have hboundary : ∀ e ∈ events, isBoundary e = false := by
    intro e he
    have hinner := h e he
    cases e with
    | documentStart | feature | endOfDocument => cases hinner
    | _ => rfl
  unfold FeatureOpen
  rw [last?_append hboundary]

/-! ## Asides -/

/-- The event neither opens nor closes a context and neither declares, binds nor resolves a step. -/
def isAside : Event → Bool
  | .before .. | .after .. | .embedding .. | .write _ | .outline _ | .examples _ => true
  | _ => false

/-- The events are asides. -/
def Asides (events : List Event) : Prop := ∀ e ∈ events, isAside e = true

/-- An aside lets an open step pass. -/
theorem passing_of_isAside (h : isAside e = true) : Passing e := by
  cases e with
  | before | after | embedding | write | outline | examples => exact ⟨rfl, rfl⟩
  | documentStart | feature | background | scenario | step | binding | result | endOfDocument
  | syntaxError => cases h

/-- An aside declares no step. -/
theorem ne_step_of_isAside (h : isAside e = true) : ¬ ∃ header, e = .step header := by
  rintro ⟨header, rfl⟩
  cases h

/-- An aside is legal where items are. -/
theorem legal_of_isAside (h : isAside e = true) (hitems : TakesItems before) :
    Legal strict before e := by
  cases e with
  | before | after | embedding => exact hitems
  | write | outline | examples => trivial
  | documentStart | feature | background | scenario | step | binding | result | endOfDocument
  | syntaxError => cases h

/-- Asides come inside a segment. -/
theorem Asides.inner (h : Asides events) : AllInner events := fun e he =>
  (passing_of_isAside (h e he)).1

/-- Two lists of asides are one. -/
theorem Asides.append (hx : Asides xs) (hy : Asides ys) : Asides (xs ++ ys) := fun e he =>
  (List.mem_append.mp he).elim (hx e) (hy e)

/-- Asides leave an open step open. -/
theorem Asides.stepOpen (h : Asides events) : StepOpen (before ++ events) ↔ StepOpen before := by
  induction events generalizing before with
  | nil => simp
  | cons e events ih =>
      have haside := h e List.mem_cons_self
      rw [List.append_cons, ih fun x hx => h x (List.mem_cons_of_mem e hx), stepOpen_concat,
        or_iff_right (ne_step_of_isAside haside), and_iff_left (passing_of_isAside haside)]

/-- Asides are legal where items are. -/
theorem Asides.conformsAfter (h : Asides events) (hitems : TakesItems before) :
    ConformsAfter strict before events := by
  induction events generalizing before with
  | nil => exact conformsAfter_nil
  | cons e events ih =>
      have hinner : AllInner [e] := fun x hx => by
        rw [List.mem_singleton] at hx
        exact h.inner x (hx ▸ List.mem_cons_self)
      have hlegal : Legal strict before e := legal_of_isAside (h e List.mem_cons_self) hitems
      exact conformsAfter_cons.mpr ⟨hlegal, ih (fun x hx => h x (List.mem_cons_of_mem e hx))
        (hinner.takesItems.mpr hitems)⟩

/-! ## Idle builders -/

variable {σ : Type} {b : Builder σ}

section Process

variable [AttachmentStore σ]

/-- A builder that keeps track of the events before accepts exactly what may follow them. -/
theorem Tracks.error_processAll_iff (h : Tracks before b) :
    (b.processAll events).error = none ↔ ConformsAfter b.settings.strict before events := by
  induction events generalizing before b with
  | nil => exact ⟨fun _ => conformsAfter_nil, fun _ => rfl⟩
  | cons e events ih =>
      rw [Builder.processAll, Builder.error_andThen, conformsAfter_cons, h.error_process_iff]
      refine and_congr_right fun hlegal => ?_
      have haccepts := Builder.accepts_process ((h.error_process_iff e).mpr hlegal)
      rw [ih (h.concat haccepts), settings_of_accepts haccepts]

/-- What an idle builder accepts comes behind the features of its tree, grouped. -/
theorem content_processAll_of_idle (hidle : b.opened = .idle) (hpending : b.pending = none)
    (h : (b.processAll events).error = none) :
    (b.processAll events).builder.tree.content =
      b.tree.content ++ grouped (arrivals b.store events) := by
  rw [content_eq_completed (stands_of_idle hidle hpending) h, completed, hidle]
  rfl

/-- An accepted end of a document leaves nothing open and no step waiting. -/
theorem idle_of_endOfDocument (h : (b.processAll (events ++ [.endOfDocument])).error = none) :
    (b.processAll (events ++ [.endOfDocument])).builder.opened = .idle ∧
      (b.processAll (events ++ [.endOfDocument])).builder.pending = none := by
  rw [Builder.builder_processAll_concat ((Builder.error_processAll_concat b events _).mp h).1]
  exact ⟨rfl, rfl⟩

end Process

end ScenarioResults.Stream
