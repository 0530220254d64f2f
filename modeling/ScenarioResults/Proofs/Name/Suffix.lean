import ScenarioResults.Proofs.Name.Alike

/-!
# The number from which a search starts

A pool remembers for each base where the last search for a free suffix ended, and the next search of
that base starts behind it. In the meantime names are taken by other means: they are reserved, claimed
as bases of their own, or made from another base. That can only take numbers from the search, and none
below the remembered one is ever free (`Siblings.Counted`). So a search that starts there ends where
one that starts at 2 ends (`Siblings.claim_of_requests`).
-/

namespace ScenarioResults.Name

/-- What a pool can be asked for: a name derived from a base, or exactly a given name. -/
inductive Request where
  | claim (base : String)
  | reserve (name : String)

namespace Siblings

variable {s s' : Siblings} {base name : String} {start j k : ℕ}

/-- The pool after a request. -/
def serve (s : Siblings) : Request → Siblings
  | .claim base => (s.claim base).2
  | .reserve name => (s.reserve name).2

/-- The pool after requests in order. -/
def serveAll (s : Siblings) (requests : List Request) : Siblings := requests.foldl serve s

/-! ## What is taken -/

/-- The name was free and is taken now; every other name is free or taken as before. -/
structure Takes (s : Siblings) (name : String) (s' : Siblings) : Prop where
  free : s.isTaken name = false
  taken : s'.isTaken name = true
  others : ∀ other, other ≠ name → s'.isTaken other = s.isTaken other

/-- Nothing that was taken becomes free. -/
theorem Takes.isTaken (h : s.Takes name s') {other : String} (hother : s.isTaken other = true) :
    s'.isTaken other = true := by
  by_cases heq : other = name
  · rw [heq]
    exact h.taken
  · rw [h.others other heq]
    exact hother

/-- A pool takes a free name when it lists this one more. -/
theorem takes_of_taken_eq (hfree : s.isTaken name = false) (h : s'.taken = name :: s.taken) :
    s.Takes name s' := by
  refine ⟨hfree, isTaken_iff.mpr (h ▸ List.mem_cons_self), fun other hother => ?_⟩
  rw [Bool.eq_iff_iff, isTaken_iff, isTaken_iff, h, List.mem_cons]
  exact or_iff_right hother

/-- A claim takes the name that it hands out. -/
theorem takes_claim (s : Siblings) (base : String) : s.Takes (s.claim base).1 (s.claim base).2 :=
  takes_of_taken_eq (isTaken_eq_false_iff.mpr (s.claim_notMem base)) (s.taken_claim base)

/-- A free name is reserved. -/
theorem reserve_of_free (h : s.isTaken name = false) : s.reserve name = (true, s.take name) := by
  rw [reserve, h]
  rfl

/-- A taken name is not reserved again, and the pool stays as it was. -/
theorem reserve_of_taken (h : s.isTaken name = true) : s.reserve name = (false, s) := by
  rw [reserve, h]
  rfl

/-- Reserving a free name takes it. -/
theorem takes_reserve (h : s.isTaken name = false) : s.Takes name (s.reserve name).2 := by
  rw [reserve_of_free h]
  exact takes_of_taken_eq h rfl

/-! ## The search for a free suffix -/

/-- A search from one number on ends at another: a number whose name is taken gives way to the next.
A search that met taken names only would end nowhere. -/
inductive Search (s : Siblings) (base : String) : ℕ → ℕ → Prop
  | stop {k : ℕ} (hfree : s.isTaken (suffixed base k) = false) : Search s base k k
  | next {k j : ℕ} (htaken : s.isTaken (suffixed base k) = true)
      (hrest : Search s base (k + 1) j) : Search s base k j

/-- A number whose name is taken is no free one, so the search may start behind it. -/
theorem mem_freeFrom_succ (htaken : s.isTaken (suffixed base start) = true) :
    k ∈ s.freeFrom base (start + 1) ↔ k ∈ s.freeFrom base start := by
  constructor
  · rintro ⟨hle, hfree⟩
    exact ⟨Nat.le_of_succ_le hle, hfree⟩
  · rintro ⟨hle, hfree⟩
    refine ⟨Nat.lt_of_le_of_ne hle ?_, hfree⟩
    rintro rfl
    rw [htaken] at hfree
    cases hfree

/-- Below the least number that makes a free name all names are taken. -/
theorem isTaken_of_lt (h : IsLeast (s.freeFrom base start) k) (hle : start ≤ j) (hlt : j < k) :
    s.isTaken (suffixed base j) = true := by
  by_contra hfree
  exact absurd (h.2 ⟨hle, Bool.eq_false_iff.mpr hfree⟩) (Nat.not_le_of_lt hlt)

/-- A search ends at the least number that makes a free name. -/
theorem search_iff : s.Search base start k ↔ IsLeast (s.freeFrom base start) k := by
  constructor
  · intro h
    induction h with
    | stop hfree => exact ⟨⟨Nat.le_refl _, hfree⟩, fun j hj => hj.1⟩
    | next htaken _ ih =>
        exact ⟨(mem_freeFrom_succ htaken).mp ih.1,
          fun j hj => ih.2 ((mem_freeFrom_succ htaken).mpr hj)⟩
  · intro hleast
    induction hleast.1.1 using Nat.decreasingInduction with
    | self => exact .stop hleast.1.2
    | of_succ j hlt ih =>
        have htaken := isTaken_of_lt hleast (Nat.le_refl j) hlt
        exact .next htaken (ih ⟨(mem_freeFrom_succ htaken).mpr hleast.1,
          fun i hi => hleast.2 ((mem_freeFrom_succ htaken).mp hi)⟩)

/-- A suffix makes a base longer. -/
theorem suffixed_ne (base : String) (k : ℕ) : suffixed base k ≠ base := by
  intro h
  have hlength := congrArg (fun name => name.toList.length) h
  simp only [toList_suffixed, List.length_append, List.length_cons] at hlength
  omega

/-- Each number below the least free one costs a taken name, and so does the base. -/
theorem le_of_isLeast_freeFrom (hbase : s.isTaken base = true)
    (h : IsLeast (s.freeFrom base 2) k) : k ≤ s.taken.length + 1 := by
  have hmem := isTaken_iff.mp hbase
  have hbelow : ∀ j ∈ List.range' 2 (k - 2), suffixed base j ∈ s.taken.erase base := by
    intro j hj
    obtain ⟨hle, hlt⟩ := List.mem_range'_1.mp hj
    rw [List.mem_erase_of_ne (suffixed_ne base j)]
    exact isTaken_iff.mp (isTaken_of_lt h hle (by omega))
  have hcount := length_le_of_suffixed_mem hbelow
  rw [List.length_erase_of_mem hmem] at hcount
  have hpos := List.length_pos_of_mem hmem
  omega

/-! ## The remembered number -/

/-- All numbers below the remembered one are taken. -/
structure Counted (s : Siblings) : Prop where
  two_le : ∀ base, 2 ≤ s.nextFor base
  below : ∀ base k, 2 ≤ k → k < s.nextFor base → s.isTaken (suffixed base k) = true

theorem counted_empty : ({} : Siblings).Counted :=
  ⟨fun _ => Nat.le_refl 2, fun _ _ hle hlt => absurd hlt (Nat.not_lt_of_le hle)⟩

/-- Starting at the remembered number misses no free one. -/
theorem Counted.freeFrom_nextFor (h : s.Counted) (base : String) :
    s.freeFrom base (s.nextFor base) = s.freeFrom base 2 := by
  ext k
  constructor
  · rintro ⟨hle, hfree⟩
    exact ⟨(h.two_le base).trans hle, hfree⟩
  · rintro ⟨hle, hfree⟩
    refine ⟨?_, hfree⟩
    by_contra hlt
    rw [h.below base k hle (Nat.lt_of_not_le hlt)] at hfree
    cases hfree

/-- A name taken by other means leaves the remembered numbers as they are. -/
theorem Counted.takes (h : s.Counted) (htakes : s.Takes name s')
    (hnext : ∀ base, s'.nextFor base = s.nextFor base) : s'.Counted := by
  refine ⟨fun base => ?_, fun base k hle hlt => ?_⟩
  · rw [hnext]
    exact h.two_le base
  · rw [hnext] at hlt
    exact htakes.isTaken (h.below base k hle hlt)

/-- A claim keeps the counts. -/
theorem Counted.claim (h : s.Counted) (base : String) : (s.claim base).2.Counted := by
  have htakes := s.takes_claim base
  cases hbase : s.isTaken base with
  | false =>
      rw [claim_of_free hbase] at htakes ⊢
      exact h.takes htakes fun _ => rfl
  | true =>
      rw [claim_of_taken hbase] at htakes ⊢
      have hleast := s.isLeast_firstFree base (s.nextFor base)
      rw [h.freeFrom_nextFor] at hleast
      generalize s.firstFree base (s.nextFor base) = k at htakes hleast
      have hnext : ∀ other, ((s.setNext base (k + 1)).take (suffixed base k)).nextFor other =
          if other = base then k + 1 else s.nextFor other := fun other =>
        nextFor_setNext s base other (k + 1)
      refine ⟨fun other => ?_, fun other j hle hlt => ?_⟩
      · rw [hnext]
        split
        · exact Nat.le_succ_of_le hleast.1.1
        · exact h.two_le other
      · rw [hnext] at hlt
        split at hlt
        · next heq =>
          subst heq
          -- the number itself has just been taken, and those before it were taken
          rcases Nat.lt_succ_iff_lt_or_eq.mp hlt with hlt | rfl
          · exact htakes.isTaken (isTaken_of_lt hleast hle hlt)
          · exact htakes.taken
        · exact htakes.isTaken (h.below other j hle hlt)

/-- Reserving a name keeps the counts. -/
theorem Counted.reserve (h : s.Counted) (name : String) : (s.reserve name).2.Counted := by
  cases hname : s.isTaken name with
  | false =>
      refine h.takes (takes_reserve hname) fun base => ?_
      rw [reserve_of_free hname]
      rfl
  | true =>
      rw [reserve_of_taken hname]
      exact h

/-- Every request keeps the counts. -/
theorem Counted.serve (h : s.Counted) (request : Request) : (s.serve request).Counted := by
  cases request with
  | claim base => exact h.claim base
  | reserve name => exact h.reserve name

/-- So does every sequence of requests. -/
theorem Counted.serveAll (h : s.Counted) (requests : List Request) :
    (s.serveAll requests).Counted := by
  induction requests generalizing s with
  | nil => exact h
  | cons request requests ih => exact ih (h.serve request)

/-- A request takes one name at most. -/
theorem length_taken_serve_le (s : Siblings) (request : Request) :
    (s.serve request).taken.length ≤ s.taken.length + 1 := by
  cases request with
  | claim base => exact (congrArg List.length (s.taken_claim base)).le
  | reserve name =>
      rw [serve, reserve]
      split
      · exact Nat.le_succ _
      · exact Nat.le_refl _

/-- Each request takes at most one name. -/
theorem length_taken_serveAll_le (s : Siblings) (requests : List Request) :
    (s.serveAll requests).taken.length ≤ s.taken.length + requests.length := by
  induction requests generalizing s with
  | nil => exact Nat.le_refl _
  | cons request requests ih =>
      have hfirst := s.length_taken_serve_le request
      have hrest := ih (s.serve request)
      rw [List.length_cons]
      show ((s.serve request).serveAll requests).taken.length ≤ _
      omega

/-- After any requests to a new pool, a claim gives the base itself when it is free. Otherwise its
search ends, within as many numbers as there were requests, at the least number from 2 on that makes a
free name. The name given was free and is the only one to be taken. A name can be reserved exactly
when it is free. -/
theorem claim_of_requests (requests : List Request) (base : String) :
    let s := ({} : Siblings).serveAll requests
    (s.isTaken base = false → (s.claim base).1 = base) ∧
      (s.isTaken base = true → ∃ k ≤ requests.length + 1,
        (∀ j, s.Search base (s.nextFor base) j ↔ j = k) ∧ IsLeast (s.freeFrom base 2) k ∧
          (s.claim base).1 = suffixed base k) ∧
      s.Takes (s.claim base).1 (s.claim base).2 ∧
      ∀ name, ((s.reserve name).1 = true ↔ s.isTaken name = false) ∧
        (s.isTaken name = false → s.Takes name (s.reserve name).2) ∧
        (s.isTaken name = true → (s.reserve name).2 = s) := by
  intro s
  refine ⟨fun hbase => ?_, fun hbase => ?_, s.takes_claim base, fun name => ⟨?_, takes_reserve, ?_⟩⟩
  · rw [claim_of_free hbase]
  -- every suffix below the counter is taken, so a search from there misses none
  · have hcounted : s.Counted := counted_empty.serveAll requests
    have hfrom := hcounted.freeFrom_nextFor base
    have hleast := s.isLeast_firstFree base (s.nextFor base)
    refine ⟨s.firstFree base (s.nextFor base), ?_, fun j => ?_, hfrom ▸ hleast, ?_⟩
    · have hbound := le_of_isLeast_freeFrom hbase (hfrom ▸ hleast)
      have htaken : s.taken.length ≤ 0 + requests.length := length_taken_serveAll_le {} requests
      omega
    · rw [search_iff]
      exact ⟨fun hj => hj.unique hleast, fun hj => hj ▸ hleast⟩
    · rw [claim_of_taken hbase]
  · cases hname : s.isTaken name with
    | false => simp [reserve_of_free hname]
    | true => simp [reserve_of_taken hname]
  · intro hname
    rw [reserve_of_taken hname]

/-- The search for a suffix of `a` starts at 4, which has been reserved, and 2 was used as a base. -/
theorem claim_of_requests_filled :
    let s := ({} : Siblings).serveAll
      [.claim "a", .claim "a", .reserve "a_4", .claim "a_2", .claim "a"]
    s.isTaken "a" = true ∧ s.nextFor "a" = 4 ∧ s.Search "a" 4 5 ∧
      IsLeast (s.freeFrom "a" 2) 5 ∧ (s.claim "a").1 = "a_5" := by
  intro s
  have htaken : s.isTaken "a" = true := by decide +kernel
  have hclaim : (s.claim "a").1 = suffixed "a" 5 := by decide +kernel
  obtain ⟨-, hsuffix, -⟩ := claim_of_requests
    [.claim "a", .claim "a", .reserve "a_4", .claim "a_2", .claim "a"] "a"
  obtain ⟨k, -, hsearch, hleast, hk⟩ := hsuffix htaken
  obtain rfl : k = 5 := suffixed_injective "a" (hk.symm.trans hclaim)
  have hnext : s.nextFor "a" = 4 := by decide +kernel
  exact ⟨htaken, hnext, hnext ▸ (hsearch 5).mpr rfl, hleast, hclaim⟩

end Siblings

end ScenarioResults.Name
