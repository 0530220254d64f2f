import Mathlib.Tactic.Common

/-!
# What becomes of things that wait

A step waits for its result, and a background for the scenario that adopts it. In both cases at most
one thing waits at a time. A turn may start a wait, end it in one of several ways, or change what
waits. `Wait.fates` reads off a list of turns what becomes of each wait that starts in it: it ends
with the first turn that ends it, or goes on to the last.

`Wait.accounted_cons` takes such a list apart turn by turn. Nothing is left out and nothing counts
twice: a wait of which the first turn decides is done with, and all others are waits of the rest.
-/

namespace ScenarioResults

variable {τ ω φ : Type}

/-- How turns of type `τ` start and end the wait of things of type `ω`, with endings of type `φ`.
What waits goes on, perhaps changed, through a turn that does not end its wait. -/
structure Wait (τ ω φ : Type) where
  starts? : τ → Option ω
  ends? : τ → ω → Option φ
  carries : τ → ω → ω

/-- What becomes of something that waits: it still waits, changed by the turns since, or its wait
has ended. -/
inductive Fate (ω φ : Type) where
  | waiting (w : ω)
  | ended (f : φ)
  deriving DecidableEq, Repr

namespace Fate

/-- What still waits. -/
def waiting? : Fate ω φ → Option ω
  | waiting w => some w
  | ended _ => none

/-- How the wait has ended. -/
def ended? : Fate ω φ → Option φ
  | waiting _ => none
  | ended f => some f

end Fate

namespace Wait

variable (k : Wait τ ω φ)

/-- What becomes of something that waits when the turns begin. -/
def fate (w : ω) : List τ → Fate ω φ
  | [] => .waiting w
  | t :: ts =>
    match k.ends? t w with
    | some f => .ended f
    | none => fate (k.carries t w) ts

/-- What becomes of each thing that starts to wait in one of the turns, in order. -/
def fates : List τ → List (Fate ω φ)
  | [] => []
  | t :: ts => ((k.starts? t).map fun w => k.fate w ts).toList ++ fates ts

/-- What waits after a turn. -/
def next (t : τ) (w? : Option ω) : Option ω :=
  (k.starts? t).or (w?.bind fun w => if (k.ends? t w).isSome then none else some (k.carries t w))

/-- How the turn ends the wait of what waits before it. -/
def ending? (t : τ) (w? : Option ω) : Option φ := w?.bind (k.ends? t)

/-- What becomes of all that waits when the turns begin or starts to wait in one of them. -/
def accounted (w? : Option ω) (ts : List τ) : List (Fate ω φ) :=
  (w?.map fun w => k.fate w ts).toList ++ k.fates ts

/-- How those of all these waits end that do end. -/
def endings (w? : Option ω) (ts : List τ) : List φ := (k.accounted w? ts).filterMap Fate.ended?

variable {k} {t : τ} {w? : Option ω}

theorem accounted_nil : k.accounted w? [] = (w?.map Fate.waiting).toList := by
  cases w? <;> rfl

theorem endings_nil : k.endings w? [] = [] := by
  cases w? <;> rfl

/-- Where nothing waits at first, what is accounted for are the fates of what starts later. -/
theorem accounted_none (ts : List τ) : k.accounted none ts = k.fates ts := rfl

/-- A turn decides of what it ends; the turns after it decide of what it lets wait or starts to
wait. A new wait must not start beside one that goes on. -/
theorem accounted_cons (hstarts : ∀ w ∈ w?, (k.starts? t).isSome → (k.ends? t w).isSome)
    (ts : List τ) :
    k.accounted w? (t :: ts) =
      ((k.ending? t w?).map Fate.ended).toList ++ k.accounted (k.next t w?) ts := by
  cases w? with
  | none => simp [accounted, fates, next, ending?]
  | some w =>
      cases hends : k.ends? t w with
      | some f => simp [accounted, fates, fate, next, ending?, hends]
      | none =>
          have hnone : k.starts? t = none := by
            by_contra hsome
            have := hstarts w rfl (Option.isSome_iff_ne_none.mpr hsome)
            simp [hends] at this
          simp [accounted, fates, fate, next, ending?, hends, hnone]

/-- The first turn ends the wait that goes on, if it does, and the others end the waits behind it.
-/
theorem endings_cons (hstarts : ∀ w ∈ w?, (k.starts? t).isSome → (k.ends? t w).isSome)
    (ts : List τ) :
    k.endings w? (t :: ts) = (k.ending? t w?).toList ++ k.endings (k.next t w?) ts := by
  rw [endings, accounted_cons hstarts, List.filterMap_append]
  cases k.ending? t w? <;> rfl

/-- What is true of something when its wait starts, and stays true with every turn, is true of what
still waits, and each ending says what follows from it. -/
theorem fate_of_carries {P : ω → Prop} {Q : Fate ω φ → Prop} (hwaiting : ∀ w, P w → Q (.waiting w))
    (hends : ∀ t w f, P w → k.ends? t w = some f → Q (.ended f))
    (hcarries : ∀ t w, P w → P (k.carries t w)) {w : ω} (hw : P w) (ts : List τ) :
    Q (k.fate w ts) := by
  induction ts generalizing w with
  | nil => exact hwaiting w hw
  | cons t ts ih =>
      unfold fate
      cases hf : k.ends? t w with
      | some f => exact hends t w f hw hf
      | none => exact ih (hcarries t w hw)

/-- Each thing that starts to wait has its fate. -/
theorem forall₂_fates {R : ω → Fate ω φ → Prop} (h : ∀ w ts, R w (k.fate w ts)) (ts : List τ) :
    List.Forall₂ R (ts.filterMap k.starts?) (k.fates ts) := by
  induction ts with
  | nil => exact .nil
  | cons t ts ih =>
      cases hstarts : k.starts? t with
      | none => simpa [fates, hstarts] using ih
      | some w => simpa [fates, hstarts] using ⟨h w ts, ih⟩

end Wait

end ScenarioResults
