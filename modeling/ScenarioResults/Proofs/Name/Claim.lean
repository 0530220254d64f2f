import Mathlib.Data.List.Nodup
import Mathlib.Data.List.Perm.Subperm
import Mathlib.Order.Bounds.Basic
import ScenarioResults.Name.Safe
import ScenarioResults.Name.Siblings

/-!
# What a claim hands out

A claimed name is new to the pool and joins it, and it is safe whenever its base is. The bounded
search for a free suffix never falls back to its default: the candidates differ, so one more
candidate than there are taken names holds a free one, and the search ends at the least of them
(`Siblings.isLeast_firstFree`).
-/

namespace ScenarioResults.Name

/-- A name fit for a path segment and an anchor: it is not empty, and no character of it is reserved
or a control character. -/
structure IsSafe (name : String) : Prop where
  ne_empty : name ≠ ""
  chars : ∀ c ∈ name.toList, c ∉ ['/', '\\', ':', '?', '#', '%', '<', '>'] ∧ isControl c = false

/-- The characters that may stand in a safe name. -/
theorem isReserved_eq_false_iff {c : Char} :
    isReserved c = false ↔
      c ∉ ['/', '\\', ':', '?', '#', '%', '<', '>'] ∧ isControl c = false := by
  simp [isReserved, and_assoc]

/-- Every result of `safe` is a safe name. -/
theorem isSafe_safe (name : String) : IsSafe (safe name) :=
  ⟨safe_ne_empty name, fun _ hc => isReserved_eq_false_iff.mp (safe_mem hc)⟩

/-- A safe name is a single segment of a path. -/
theorem IsSafe.slash_notMem {name : String} (h : IsSafe name) : '/' ∉ name.toList :=
  fun hslash => (h.chars '/' hslash).1 List.mem_cons_self

/-! ## Suffixes -/

/-- The characters of a name with a suffix: the base, an underscore and the digits. -/
theorem toList_suffixed (base : String) (k : ℕ) :
    (suffixed base k).toList = base.toList ++ '_' :: Nat.toDigits 10 k := by
  simp [suffixed, Nat.toString_eq_repr, Nat.toList_repr]

/-- Different numbers make different names. -/
theorem suffixed_injective (base : String) : Function.Injective (suffixed base) := by
  intro j k h
  have hlist := congrArg String.toList h
  rw [toList_suffixed, toList_suffixed, List.append_cancel_left_eq, List.cons.injEq] at hlist
  have hdigits := congrArg (fun cs => Nat.ofDigitChars 10 cs 0) hlist.2
  simpa using hdigits

/-- A digit is no reserved character. -/
theorem isReserved_of_isDigit {c : Char} (hc : c.isDigit = true) : isReserved c = false := by
  have hrange : 48 ≤ c.toNat ∧ c.toNat ≤ 57 := Char.isDigit_iff_toNat.mp hc
  have hne : ∀ d : Char, ¬ (48 ≤ d.toNat ∧ d.toNat ≤ 57) → c ≠ d := by
    rintro d hd rfl
    exact hd hrange
  rw [isReserved_eq_false_iff]
  constructor
  · simp only [List.mem_cons, List.not_mem_nil, or_false, not_or]
    refine ⟨?_, ?_, ?_, ?_, ?_, ?_, ?_, ?_⟩ <;> exact hne _ (by decide)
  · simp [isControl]
    omega

/-- A suffix keeps a base safe. -/
theorem IsSafe.suffixed {base : String} (h : IsSafe base) (k : ℕ) : IsSafe (suffixed base k) := by
  refine ⟨fun hempty => ?_, fun c hc => ?_⟩
  · have := congrArg String.toList hempty
    simp [toList_suffixed] at this
  · rw [toList_suffixed, List.mem_append, List.mem_cons] at hc
    rcases hc with hc | rfl | hc
    · exact h.chars c hc
    · decide
    · exact isReserved_eq_false_iff.mp
        (isReserved_of_isDigit (Nat.isDigit_of_mem_toDigits (by omega) (by omega) hc))

namespace Siblings

variable {s : Siblings} {base name : String}

/-- A name is taken when the pool lists it. -/
theorem isTaken_iff : s.isTaken name = true ↔ name ∈ s.taken := List.contains_iff_mem

/-- A name is free when the pool does not list it. -/
theorem isTaken_eq_false_iff : s.isTaken name = false ↔ name ∉ s.taken := by
  rw [← Bool.not_eq_true, isTaken_iff]

/-! ## The search for a free suffix -/

/-- The numbers from `start` on that make a free name. -/
def freeFrom (s : Siblings) (base : String) (start : ℕ) : Set ℕ :=
  {k | start ≤ k ∧ s.isTaken (suffixed base k) = false}

/-- A list that has the names of all candidates is as long as they are many. -/
theorem length_le_of_suffixed_mem {names : List String} {start n : ℕ}
    (h : ∀ k ∈ List.range' start n, suffixed base k ∈ names) : n ≤ names.length := by
  have hsub : (List.range' start n).map (suffixed base) ⊆ names := by
    intro name hname
    obtain ⟨k, hk, rfl⟩ := List.mem_map.mp hname
    exact h k hk
  have hnodup : ((List.range' start n).map (suffixed base)).Nodup :=
    List.Nodup.map (suffixed_injective base) List.nodup_range'
  have hlen := (List.subperm_of_subset hnodup hsub).length_le
  rwa [List.length_map, List.length_range'] at hlen

/-- Among the candidates of a search one is free. -/
theorem exists_free (s : Siblings) (base : String) (start : ℕ) :
    ∃ k ∈ List.range' start (s.taken.length + 1), s.isTaken (suffixed base k) = false := by
  by_contra hall
  push Not at hall
  -- all candidates taken would put one name too many into the pool
  exact Nat.not_succ_le_self _ (length_le_of_suffixed_mem fun k hk =>
    isTaken_iff.mp (Bool.eq_true_of_not_eq_false (hall k hk)))

/-- The search ends at the least number that makes a free name. -/
theorem isLeast_firstFree (s : Siblings) (base : String) (start : ℕ) :
    IsLeast (s.freeFrom base start) (s.firstFree base start) := by
  obtain ⟨k, hk, hfree⟩ := s.exists_free base start
  have hsome : ((List.range' start (s.taken.length + 1)).find? fun k =>
      !s.isTaken (suffixed base k)).isSome := by
    rw [List.find?_isSome]
    exact ⟨k, hk, by rw [hfree]; rfl⟩
  obtain ⟨j, hj⟩ := Option.isSome_iff_exists.mp hsome
  obtain ⟨hfound, hmem, hbefore⟩ := List.find?_range'_eq_some.mp hj
  rw [firstFree, hj, Option.getD_some]
  refine ⟨⟨(List.mem_range'_1.mp hmem).1, by simpa using hfound⟩, fun i hi => ?_⟩
  by_contra hlt
  have htaken := hbefore i hi.1 (Nat.lt_of_not_le hlt)
  rw [hi.2] at htaken
  exact absurd htaken (by decide)

/-! ## Claims -/

/-- A free base is handed out as it is. -/
theorem claim_of_free (h : s.isTaken base = false) : s.claim base = (base, s.take base) := by
  rw [claim, h]
  rfl

/-- A claim that makes a suffix remembers the number behind it. -/
theorem claim_of_taken (h : s.isTaken base = true) :
    s.claim base = (suffixed base (s.firstFree base (s.nextFor base)),
      (s.setNext base (s.firstFree base (s.nextFor base) + 1)).take
        (suffixed base (s.firstFree base (s.nextFor base)))) := by
  rw [claim, h]
  rfl

/-- A claimed name was free. -/
theorem claim_notMem (s : Siblings) (base : String) : (s.claim base).1 ∉ s.taken := by
  cases h : s.isTaken base with
  | false =>
      rw [claim_of_free h]
      exact isTaken_eq_false_iff.mp h
  | true =>
      rw [claim_of_taken h]
      exact isTaken_eq_false_iff.mp (s.isLeast_firstFree base _).1.2

/-- A claimed name joins the pool, and nothing else does. -/
theorem taken_claim (s : Siblings) (base : String) :
    (s.claim base).2.taken = (s.claim base).1 :: s.taken := by
  unfold claim
  split <;> rfl

/-- A claim gives the base itself exactly when the base is free. -/
theorem claim_eq_self_iff (s : Siblings) (base : String) :
    (s.claim base).1 = base ↔ base ∉ s.taken := by
  constructor
  · intro h
    have hfree := s.claim_notMem base
    rwa [h] at hfree
  · intro h
    rw [claim_of_free (isTaken_eq_false_iff.mpr h)]

/-- A claim gives the base or the base with a suffix. -/
theorem claim_cases (s : Siblings) (base : String) :
    (s.claim base).1 = base ∨ ∃ k, (s.claim base).1 = suffixed base k := by
  unfold claim
  split
  · exact Or.inr ⟨_, rfl⟩
  · exact Or.inl rfl

/-- A claim of a safe base gives a safe name. -/
theorem isSafe_claim (s : Siblings) {base : String} (h : IsSafe base) :
    IsSafe (s.claim base).1 := by
  unfold claim
  split
  · exact h.suffixed _
  · exact h

end Siblings

end ScenarioResults.Name
