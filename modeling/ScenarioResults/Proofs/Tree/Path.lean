import Mathlib.Data.List.Triplewise
import ScenarioResults.Tree.Lookup

/-!
# Reading a path

A path is read in three moves: the slashes at its ends go, a root segment in front goes, and what is
left is cut at its slashes. Each move is characterised by the paths that it sends to a given result.
-/

namespace ScenarioResults

/-! ## Stripping -/

namespace Text

variable {p : Char → Bool} {cs : List Char} {c : Char}

/-- The last character of a stripped text is none of those that go. -/
theorem getLast?_strip (h : (strip p cs).getLast? = some c) : p c = false := by
  rw [strip, List.getLast?_reverse] at h
  have hnot := List.head?_dropWhile_not p (cs.dropWhile p).reverse
  simpa [h] using hnot

end Text

/-! ## Segments -/

/-- A text is one segment when it holds no slash. -/
theorem splitOn_eq_singleton_iff {cs a : List Char} :
    cs.splitOn '/' = [a] ↔ cs = a ∧ '/' ∉ a := by
  constructor
  · intro h
    by_cases hslash : '/' ∈ cs
    · obtain ⟨x, y, rfl, hx⟩ := List.eq_append_cons_of_mem hslash
      rw [List.splitOn_append_cons_self_of_not_mem hx] at h
      simp at h
    · rw [List.splitOn_eq_singleton hslash] at h
      obtain rfl := List.singleton_inj.mp h
      exact ⟨rfl, hslash⟩
  · rintro ⟨rfl, hslash⟩
    exact List.splitOn_eq_singleton hslash

/-- A text is two segments when it holds a single slash. -/
theorem splitOn_eq_pair_iff {cs a b : List Char} :
    cs.splitOn '/' = [a, b] ↔ cs = a ++ '/' :: b ∧ '/' ∉ a ∧ '/' ∉ b := by
  constructor
  · intro h
    by_cases hslash : '/' ∈ cs
    · -- the first slash ends the first segment
      obtain ⟨x, y, rfl, hx⟩ := List.eq_append_cons_of_mem hslash
      rw [List.splitOn_append_cons_self_of_not_mem hx, List.cons.injEq,
        splitOn_eq_singleton_iff] at h
      obtain ⟨rfl, rfl, hy⟩ := h
      exact ⟨rfl, hx, hy⟩
    · rw [List.splitOn_eq_singleton hslash] at h
      simp at h
  · rintro ⟨rfl, ha, hb⟩
    rw [List.splitOn_append_cons_self_of_not_mem ha, List.splitOn_eq_singleton hb]

/-- A text is empty, one segment, two segments or more. -/
theorem segments_cases (cs : List Char) :
    cs = [] ∨
      (∃ a : String, a ≠ "" ∧ '/' ∉ a.toList ∧ cs = a.toList) ∨
      (∃ a b : String, '/' ∉ a.toList ∧ '/' ∉ b.toList ∧ cs = (a ++ "/" ++ b).toList) ∨
      ∃ a b c rest, cs.splitOn '/' = a :: b :: c :: rest := by
  by_cases hnil : cs = []
  · exact Or.inl hnil
  refine Or.inr ?_
  cases hsplit : cs.splitOn '/' with
  | nil => exact absurd hsplit (List.splitOn_ne_nil _ _)
  | cons a rest =>
      cases rest with
      | nil =>
          obtain ⟨rfl, hslash⟩ := splitOn_eq_singleton_iff.mp hsplit
          exact Or.inl ⟨String.ofList cs, by simpa using hnil, by simpa using hslash, by simp⟩
      | cons b rest =>
          cases rest with
          | nil =>
              obtain ⟨rfl, ha, hb⟩ := splitOn_eq_pair_iff.mp hsplit
              exact Or.inr (Or.inl ⟨String.ofList a, String.ofList b, by simpa using ha,
                by simpa using hb, by simp⟩)
          | cons c rest => exact Or.inr (Or.inr ⟨a, b, c, rest, rfl⟩)

/-! ## The root segment -/

/-- A path without the slashes at its ends. -/
def trimmed (path : String) : String := String.ofList (Text.strip (· == '/') path.toList)

theorem toList_trimmed (path : String) :
    (trimmed path).toList = Text.strip (· == '/') path.toList := by simp [trimmed]

/-- The root segment holds no slash. -/
theorem slash_notMem_rootName : '/' ∉ rootName.toList := by decide +kernel

/-- What is left of a path is nothing, what follows the root segment, or the whole of it. -/
theorem relativePath_cases (path : String) :
    (trimmed path = rootName ∧ relativePath path = []) ∨
      (trimmed path).toList = rootName.toList ++ '/' :: relativePath path ∨
        (trimmed path ≠ rootName ∧ ¬ rootName.toList ++ ['/'] <+: (trimmed path).toList ∧
          relativePath path = (trimmed path).toList) := by
  have hrelative : relativePath path =
      if (trimmed path).toList = rootName.toList then []
      else
        ((rootName.toList ++ ['/']).isPrefixOf? (trimmed path).toList).getD
          (trimmed path).toList := by
    rw [toList_trimmed]
    rfl
  by_cases hroot : trimmed path = rootName
  · exact Or.inl ⟨hroot, by rw [hrelative, hroot, if_pos rfl]⟩
  rw [if_neg fun h => hroot (String.toList_inj.mp h)] at hrelative
  cases hfront : (rootName.toList ++ ['/']).isPrefixOf? (trimmed path).toList with
  | some rest =>
      rw [hfront, Option.getD_some] at hrelative
      have happend := List.isPrefixOf?_eq_some_iff_append_eq.mp hfront
      exact Or.inr (Or.inl (by rw [hrelative, ← happend]; simp))
  | none =>
      rw [hfront, Option.getD_none] at hrelative
      refine Or.inr (Or.inr ⟨hroot, fun ⟨rest, happend⟩ => ?_, hrelative⟩)
      rw [List.isPrefixOf?_eq_some_iff_append_eq.mpr happend] at hfront
      cases hfront

/-- Nothing is left of the root path alone. -/
theorem relativePath_eq_nil_iff {path : String} :
    relativePath path = [] ↔ trimmed path = "" ∨ trimmed path = rootName := by
  rcases relativePath_cases path with ⟨hroot, hnil⟩ | hrest | ⟨hroot, -, hself⟩
  · simp [hroot, hnil]
  · have hne : relativePath path ≠ [] := by
      intro hnil
      -- a trimmed path does not end in a slash
      have hlast : (trimmed path).toList.getLast? = some '/' := by rw [hrest, hnil]; simp
      rw [toList_trimmed] at hlast
      simpa using Text.getLast?_strip hlast
    refine ⟨fun hnil => absurd hnil hne, ?_⟩
    rintro (h | h) <;> rw [h] at hrest <;> simp at hrest
  · rw [hself, String.toList_eq_nil_iff]
    exact ⟨Or.inl, fun h => h.resolve_right hroot⟩

/-- The paths of which `r` is left. -/
theorem relativePath_eq_iff {path r : String} (hr : r ≠ "") :
    relativePath path = r.toList ↔
      trimmed path = rootName ++ "/" ++ r ∨
        (trimmed path = r ∧ r ≠ rootName ∧ ¬ rootName.toList ++ ['/'] <+: r.toList) := by
  have hrooted : trimmed path = rootName ++ "/" ++ r ↔
      (trimmed path).toList = rootName.toList ++ '/' :: r.toList := by
    rw [← String.toList_inj]
    simp
  rw [hrooted]
  rcases relativePath_cases path with ⟨hroot, hnil⟩ | hrest | ⟨hroot, hfront, hself⟩
  · rw [hroot, hnil]
    refine ⟨fun h => absurd (String.toList_eq_nil_iff.mp h.symm) hr, ?_⟩
    rintro (h | ⟨rfl, h, -⟩)
    · simp at h
    · exact absurd rfl h
  · rw [hrest]
    constructor
    · intro h
      exact Or.inl (by rw [h])
    · rintro (h | ⟨rfl, -, h⟩)
      · simpa using h
      · exact absurd ⟨relativePath path, by rw [hrest]; simp⟩ h
  · rw [hself, String.toList_inj]
    constructor
    · rintro rfl
      exact Or.inr ⟨rfl, hroot, hfront⟩
    · rintro (h | ⟨h, -, -⟩)
      · exact absurd ⟨r.toList, by rw [h]; simp⟩ hfront
      · exact h

/-- The paths of which one segment is left. -/
theorem relativePath_eq_segment_iff {path r : String} (hr : r ≠ "") (hslash : '/' ∉ r.toList) :
    relativePath path = r.toList ↔
      trimmed path = rootName ++ "/" ++ r ∨ (trimmed path = r ∧ r ≠ rootName) := by
  have hfront : ¬ rootName.toList ++ ['/'] <+: r.toList :=
    fun ⟨rest, h⟩ => hslash (by rw [← h]; simp)
  simp [relativePath_eq_iff hr, hfront]

/-- The paths of which two segments are left. -/
theorem relativePath_eq_pair_iff {path a b : String} (ha : '/' ∉ a.toList) :
    relativePath path = (a ++ "/" ++ b).toList ↔
      trimmed path = rootName ++ "/" ++ (a ++ "/" ++ b) ∨
        (trimmed path = a ++ "/" ++ b ∧ a ≠ rootName) := by
  have hlist : (a ++ "/" ++ b).toList = a.toList ++ '/' :: b.toList := by simp
  have hslash : '/' ∈ (a ++ "/" ++ b).toList := by rw [hlist]; simp
  have hne : a ++ "/" ++ b ≠ "" := fun h => by simp [h] at hslash
  have hroot : a ++ "/" ++ b ≠ rootName := fun h => slash_notMem_rootName (h ▸ hslash)
  -- the root segment is in front exactly when it is the first of the two
  have hfront : rootName.toList ++ ['/'] <+: (a ++ "/" ++ b).toList ↔ a = rootName := by
    rw [hlist]
    constructor
    · rintro ⟨rest, h⟩
      have hsplit := congrArg (List.splitOn '/') h
      rw [List.append_assoc, List.singleton_append,
        List.splitOn_append_cons_self_of_not_mem slash_notMem_rootName,
        List.splitOn_append_cons_self_of_not_mem ha] at hsplit
      exact String.toList_inj.mp (List.cons.inj hsplit).1.symm
    · rintro rfl
      exact ⟨b.toList, by simp⟩
  rw [relativePath_eq_iff hne, hfront]
  simp [hroot]

end ScenarioResults
