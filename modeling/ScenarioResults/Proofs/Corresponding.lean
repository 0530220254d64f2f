import Mathlib.Data.List.Forall2
import ScenarioResults.Attempt

/-!
# Corresponding lists

Lists of the same length correspond when their members do, position by position. What is read off
corresponding lists, and what becomes of them when each member is updated, is said here once.
-/

namespace ScenarioResults

variable {α β γ : Type} {R : α → β → Prop} {as : List α} {bs : List β}

/-- Two views agree on lists exactly when they agree on the members. -/
theorem map_eq_map_iff {f : α → γ} {g : β → γ} :
    as.map f = bs.map g ↔ List.Forall₂ (fun a b => f a = g b) as bs := by
  rw [← List.forall₂_eq_eq_eq, List.forall₂_map_left_iff, List.forall₂_map_right_iff]

/-- Lists that correspond do so at each position. -/
theorem rel_getElem?_of_forall₂ (h : List.Forall₂ R as bs) (i : ℕ) :
    Option.Rel R as[i]? bs[i]? := by
  induction h generalizing i with
  | nil => exact .none
  | cons hR _ ih =>
      cases i with
      | zero => exact .some hR
      | succ i => exact ih i

/-- Lists that correspond still do so when their positions are added. -/
theorem forall₂_zipIdx (h : List.Forall₂ R as bs) (k : ℕ) :
    List.Forall₂ (fun x y => R x.1 y.1 ∧ x.2 = y.2) (as.zipIdx k) (bs.zipIdx k) := by
  induction h generalizing k with
  | nil => exact .nil
  | cons hR _ ih => exact .cons ⟨hR, rfl⟩ (ih (k + 1))

/-- What is read off the members of a kind is the same where kind and reading are. -/
theorem map_filter_congr_of_forall₂ {p : α → Bool} {q : β → Bool} {f : α → γ} {g : β → γ}
    (hkind : ∀ a b, R a b → p a = q b) (hread : ∀ a b, R a b → f a = g b)
    (h : List.Forall₂ R as bs) : (as.filter p).map f = (bs.filter q).map g := by
  have hfilter : List.Forall₂ R (as.filter p) (bs.filter q) :=
    List.rel_filter (fun a b hR => Bool.eq_iff_iff.mp (hkind a b hR)) h
  exact map_eq_map_iff.mpr (hfilter.imp hread)

/-- Steps that do the same for corresponding members come to the same. -/
theorem foldlM_congr_of_forall₂ {f : γ → α → Option γ} {g : γ → β → Option γ}
    (hfg : ∀ c a b, R a b → f c a = g c b) (h : List.Forall₂ R as bs) (c : γ) :
    as.foldlM f c = bs.foldlM g c := by
  induction h generalizing c with
  | nil => rfl
  | cons hR _ ih =>
      rw [List.foldlM_cons, List.foldlM_cons, hfg c _ _ hR]
      exact congrArg _ (funext ih)

/-- Members that correspond before their updates correspond after them. -/
theorem forall₂_of_updates {f : α → Attempt α} {g : β → Attempt β} {S : α → β → Prop}
    (hstep : ∀ a b a' b', R a b → f a = .done a' → g b = .done b' → S a' b')
    {as' : List α} {bs' : List β} (h : List.Forall₂ R as bs)
    (ha : List.Forall₂ (fun a a' => f a = .done a') as as')
    (hb : List.Forall₂ (fun b b' => g b = .done b') bs bs') : List.Forall₂ S as' bs' := by
  induction h generalizing as' bs' with
  | nil =>
      cases ha
      cases hb
      exact .nil
  | cons hR _ ih =>
      obtain ⟨a', as', ha', has, rfl⟩ := List.forall₂_cons_left_iff.mp ha
      obtain ⟨b', bs', hb', hbs, rfl⟩ := List.forall₂_cons_left_iff.mp hb
      exact .cons (hstep _ _ _ _ hR ha' hb') (ih has hbs)

end ScenarioResults
