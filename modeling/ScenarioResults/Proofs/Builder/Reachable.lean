import ScenarioResults.Proofs.Builder.Anchored

/-!
# Reachable builders

What a builder can become by events, accepted or refused, and by going on from other trees. No step
waits there outside a background or scenario (`Reachable.takesSteps`), so an idle builder has
nothing left over from before.
-/

namespace ScenarioResults.Builder

variable {σ : Type} {b b' : Builder σ}

/-- A refused event leaves a step waiting only where it waited before. -/
theorem Spares.takesSteps (h : Spares b b') (hb : b.pending.isSome → b.takesSteps = true)
    (hpending : b'.pending.isSome) : b'.takesSteps = true := by
  rcases h.pending, h.opened with ⟨hsame | hnone, hopened | ⟨-, hnone⟩⟩
  · have htakes := hb (hsame ▸ hpending)
    unfold Builder.takesSteps Builder.context at htakes ⊢
    rwa [hopened]
  all_goals simp [hnone] at hpending

/-- Nothing is open in an idle builder. -/
theorem opened_of_idle (h : b.context = .idle) : b.opened = .idle := by
  cases hopen : b.opened <;> simp [Builder.context, hopen, Open.context] at h
  rfl

section Process

variable [AttachmentStore σ]

/-- A fresh builder becomes this one. -/
inductive Reachable : Builder σ → Prop
  | new (settings : Settings) (store : σ) : Reachable (Builder.new settings store)
  | process {b : Builder σ} (e : Event) (h : Reachable b) : Reachable (b.process e).builder
  | continuing {b : Builder σ} (tree : Tree) (h : Reachable b) : Reachable (b.continuing tree)

/-- A step waits in a reachable builder only inside a background or scenario. -/
theorem Reachable.takesSteps (h : b.Reachable) (hpending : b.pending.isSome) :
    b.takesSteps = true := by
  induction h with
  | new => simp [Builder.new] at hpending
  | @process b e _ ih =>
      by_cases he : (b.process e).error = none
      · exact (accepts_process he).takesSteps ih hpending
      · exact (spares_process_of_refused he).takesSteps ih hpending
  | continuing _ _ ih => exact ih hpending

/-- No step waits in an idle builder. -/
theorem Reachable.pending_of_idle (h : b.Reachable) (hidle : b.opened = .idle) :
    b.pending = none := by
  by_contra hpending
  have htakes := h.takesSteps (Option.isSome_iff_ne_none.mpr hpending)
  simp [Builder.takesSteps, Builder.context, hidle, Open.context] at htakes

end Process

end ScenarioResults.Builder
