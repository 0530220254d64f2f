import Mathlib.Data.List.Forall2
import ScenarioResults.Attempt

/-!
# When an attempt completes

The combinators of `Attempt` opened from the outside: each completes exactly when its parts do, and
an update of list members leaves every member either as it was or as its own update left it.
-/

namespace ScenarioResults.Attempt

variable {α β γ : Type}

@[simp]
theorem value_done (a : α) : (done a).value = a := rfl

@[simp]
theorem value_halted (a : α) : (halted a).value = a := rfl

@[simp]
theorem map_done (f : α → β) (a : α) : (done a).map f = done (f a) := rfl

@[simp]
theorem map_halted (f : α → β) (a : α) : (halted a).map f = halted (f a) := rfl

/-- What an update leaves is mapped whether it completes or not. -/
@[simp]
theorem value_map (x : Attempt α) (f : α → β) : (x.map f).value = f x.value := by
  cases x <;> rfl

/-- A result is missing exactly when the attempt does not complete. -/
theorem done?_eq_none_iff {x : Attempt α} : x.done? = none ↔ ¬ ∃ a, x = done a := by
  cases x <;> simp [done?]

/-- A mapped update completes exactly when the update does. -/
theorem map_eq_done_iff {x : Attempt α} {f : α → β} {b : β} :
    x.map f = done b ↔ ∃ a, x = done a ∧ f a = b := by
  cases x <;> simp [map]

/-- Two updates in a row complete exactly when both do. -/
theorem andThen_eq_done_iff {x : Attempt α} {next : α → Attempt α} {b : α} :
    x.andThen next = done b ↔ ∃ a, x = done a ∧ next a = done b := by
  cases x <;> simp [andThen]

/-- An update that needs a result completes exactly when there is one and it completes with it. -/
theorem require_eq_done_iff {r : Option γ} {a : α} {next : γ → Attempt α} {b : α} :
    require r a next = done b ↔ ∃ c, r = some c ∧ next c = done b := by
  cases r <;> simp [require]

/-- What holds of the first part and is kept by the second holds wherever the sequence stops. -/
theorem value_andThen {P : α → Prop} {x : Attempt α} {next : α → Attempt α} (hx : P x.value)
    (hnext : ∀ a, P a → P (next a).value) : P (x.andThen next).value := by
  cases x with
  | done a => exact hnext a hx
  | halted a => exact hx

/-- What holds of the given value and of every continuation holds whether or not a result is
missing. -/
theorem value_require {P : α → Prop} {r : Option γ} {a : α} {next : γ → Attempt α} (ha : P a)
    (hnext : ∀ c, P (next c).value) : P (require r a next).value := by
  cases r with
  | none => exact ha
  | some c => exact hnext c

/-- Each member is left alone or as its own update left it. -/
theorem each_value_getElem? (f : α → Attempt α) (as : List α) (i : ℕ) :
    (each f as).value[i]? = as[i]? ∨ (each f as).value[i]? = as[i]?.map fun a => (f a).value := by
  induction as generalizing i with
  | nil => exact Or.inl rfl
  | cons a as ih =>
      unfold each
      cases ha : f a with
      -- the first failure ends it: its member is changed as far as it went, the rest not at all
      | halted b =>
          cases i with
          | zero => exact Or.inr (by simp [ha])
          | succ i => exact Or.inl (by simp)
      | done b =>
          cases i with
          | zero => exact Or.inr (by simp [ha])
          | succ i => simpa using ih i

/-- A view that every member's update keeps. -/
theorem map_value_each {f : α → Attempt α} {view : α → β} (h : ∀ a, view (f a).value = view a)
    (as : List α) : (each f as).value.map view = as.map view := by
  apply List.ext_getElem?
  intro i
  rw [List.getElem?_map, List.getElem?_map]
  rcases each_value_getElem? f as i with hi | hi
  · rw [hi]
  · rw [hi]
    cases as[i]? with
    | none => rfl
    | some a => exact congrArg some (h a)

/-- An update of list members completes exactly when every member's update does. -/
theorem each_eq_done_iff {f : α → Attempt α} {as bs : List α} :
    each f as = done bs ↔ List.Forall₂ (fun a b => f a = done b) as bs := by
  induction as generalizing bs with
  | nil => simp [each, eq_comm]
  | cons a as ih =>
      unfold each
      cases ha : f a with
      | halted b => simp [List.forall₂_cons_left_iff, ha]
      | done b =>
          simp only [map_eq_done_iff, ih, List.forall₂_cons_left_iff, ha, done.injEq]
          constructor
          · rintro ⟨bs, hbs, rfl⟩
            exact ⟨b, bs, rfl, hbs, rfl⟩
          · rintro ⟨_, bs, rfl, hbs, rfl⟩
            exact ⟨bs, hbs, rfl⟩

/-- An update that completes for every member completes. -/
theorem exists_each {f : α → Attempt α} {as : List α} (h : ∀ a ∈ as, ∃ b, f a = done b) :
    ∃ bs, each f as = done bs := by
  induction as with
  | nil => exact ⟨[], rfl⟩
  | cons a as ih =>
      obtain ⟨b, hb⟩ := h a List.mem_cons_self
      obtain ⟨bs, hbs⟩ := ih fun a' ha' => h a' (List.mem_cons_of_mem _ ha')
      exact ⟨b :: bs, each_eq_done_iff.mpr (.cons hb (each_eq_done_iff.mp hbs))⟩

/-- A completed update leaves of every member what its own update leaves. -/
theorem eq_map_of_each {f : α → Attempt α} {as bs : List α} (h : each f as = done bs) :
    bs = as.map fun a => (f a).value := by
  have heach := each_eq_done_iff.mp h
  clear h
  induction heach with
  | nil => rfl
  | cons hb _ ih => rw [List.map_cons, hb, ← ih, value_done]

end ScenarioResults.Attempt
