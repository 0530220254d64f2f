import ScenarioResults.Proofs.Name.Growth

/-!
# Names that survive an adoption

Adopted members claim the names they bring one after the other, in a pool that grows with each
claim. So a name can be free in the pool and still be gone when its turn comes: a member before it
may have been given the same name as a suffix of its own. `name?_adopt_eq_iff` says that nothing else
takes a name away.
-/

namespace ScenarioResults.Name.Family

variable {α : Type}

/-- The name that a member has once it has claimed, in a pool, the one it brings. -/
theorem name_rename {m : Member α} {n : String} (h : m.name = some n) (names : Siblings) :
    (rename m names).1.name = some (names.claim n).1 := by
  simp [rename, h]

/-- The pool after a member has claimed its name: it holds the old names and the one that the member
has now. -/
theorem mem_taken_rename (m : Member α) (names : Siblings) (n : String) :
    n ∈ (rename m names).2.taken ↔ n ∈ names.taken ∨ (rename m names).1.name = some n := by
  cases h : m.name with
  | none => simp [rename, h]
  | some old => simp [rename, h, Siblings.taken_claim, or_comm, eq_comm]

/-- In a list of members that claim their names in order, one keeps its name exactly when the name
was free at first and no member before it has it now. -/
theorem renameEach_keeps_iff (ms : List (Member α)) (names : Siblings) {i : ℕ} {n : String}
    (h : ms[i]?.bind Member.name = some n) :
    (renameEach ms names).1[i]?.bind Member.name = some n ↔
      n ∉ names.taken ∧
        ∀ j < i, (renameEach ms names).1[j]?.bind Member.name ≠ some n := by
  induction ms generalizing names i with
  | nil => simp at h
  | cons m ms ih =>
      cases i with
      | zero =>
          have hname : m.name = some n := by simpa using h
          simp [renameEach, name_rename hname, Siblings.claim_eq_self_iff]
      | succ i =>
          -- the first member has claimed, and its name joins those that were taken at first
          have hrest := ih (rename m names).2 (i := i) (by simpa using h)
          rw [mem_taken_rename] at hrest
          simp only [renameEach, List.getElem?_cons_succ, hrest, not_or, and_assoc]
          refine and_congr_right fun _ => ⟨?_, ?_⟩
          · rintro ⟨hfirst, hrest⟩ j hj
            cases j with
            | zero => simpa using hfirst
            | succ j => simpa using hrest j (Nat.lt_of_succ_lt_succ hj)
          · intro hall
            exact ⟨by simpa using hall 0 (Nat.succ_pos i),
              fun j hj => by simpa using hall (j + 1) (Nat.succ_lt_succ hj)⟩

/-- The names of the adopted members, by position behind those that were here. -/
theorem name?_adopt_add (f other : Family α) (i : ℕ) :
    (f.adopt other).name? (f.size + i) =
      (renameEach other.members f.names).1[i]?.bind Member.name := by
  simp [name?, adopt, size, List.getElem?_append_right]

/-- An adopted member keeps its name exactly when the name is free here and is not given to a member
adopted before. -/
theorem name?_adopt_eq_iff (f other : Family α) {i : ℕ} {n : String}
    (h : other.name? i = some n) :
    (f.adopt other).name? (f.size + i) = some n ↔
      n ∉ f.names.taken ∧ ∀ j < i, (f.adopt other).name? (f.size + j) ≠ some n := by
  simp only [name?_adopt_add]
  exact renameEach_keeps_iff other.members f.names h

/-- A member that had a name is called what some pool hands out for it. -/
theorem exists_claim_of_renameEach {ms : List (Member α)} {i : ℕ} {old : String}
    (h : ms[i]?.bind Member.name = some old) (names : Siblings) :
    ∃ pool : Siblings,
      (renameEach ms names).1[i]?.bind Member.name = some (pool.claim old).1 := by
  induction ms generalizing names i with
  | nil => simp at h
  | cons m ms ih =>
      cases i with
      | zero =>
          have hname : m.name = some old := by simpa using h
          exact ⟨names, by simp [renameEach, name_rename hname]⟩
      | succ i =>
          obtain ⟨pool, hpool⟩ := ih (by simpa using h) (rename m names).2
          exact ⟨pool, by simpa [renameEach] using hpool⟩

/-- An adopted member has its old name or that name with a suffix. -/
theorem name?_adopt_cases (f other : Family α) {i : ℕ} {old n : String}
    (h : other.name? i = some old) (hn : (f.adopt other).name? (f.size + i) = some n) :
    n = old ∨ ∃ k, n = suffixed old k := by
  obtain ⟨pool, hpool⟩ := exists_claim_of_renameEach h f.names
  rw [name?_adopt_add, hpool, Option.some.injEq] at hn
  exact hn ▸ pool.claim_cases old

end ScenarioResults.Name.Family
