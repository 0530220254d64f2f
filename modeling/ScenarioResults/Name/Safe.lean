/-!
# Safe names

A safe name can stand as a segment of a path and as an anchor: it is not empty and holds none of the
reserved characters and no control character. `safe_mem` and `safe_ne_empty` say so of every result of
`safe`, and `safe_eq_self` that such a name is left alone.
-/

namespace ScenarioResults.Name

/-- Whether the character is a control character (Unicode category `Cc`). -/
def isControl (c : Char) : Bool :=
  c.toNat < 0x20 || (0x7f ≤ c.toNat && c.toNat ≤ 0x9f)

/-- Whether the character may not stand in a path segment or an anchor. -/
def isReserved (c : Char) : Bool :=
  c == '/' || c == '\\' || c == ':' || c == '?' || c == '#' || c == '%' || c == '<' || c == '>' ||
    isControl c

/-- Replace a reserved character by an underscore. -/
def safeChar (c : Char) : Char :=
  if isReserved c then '_' else c

/-- Replace every reserved character by an underscore; the empty name becomes one underscore. -/
def safe (name : String) : String :=
  if name.isEmpty then "_" else name.map safeChar

/-! ## Results are safe -/

/-- A replaced character is not reserved. -/
theorem isReserved_safeChar (c : Char) : isReserved (safeChar c) = false := by
  unfold safeChar
  split
  · decide
  · next h => exact Bool.eq_false_iff.2 h

/-- A character that is not reserved is left alone. -/
theorem safeChar_eq_self {c : Char} (h : isReserved c = false) : safeChar c = c := by
  simp [safeChar, h]

/-- A name that is not empty is made safe character by character. -/
theorem toList_safe {name : String} (h : name ≠ "") :
    (safe name).toList = name.toList.map safeChar := by
  simp [safe, h]

/-- No character of a safe name is reserved. -/
theorem safe_mem {name : String} {c : Char} (h : c ∈ (safe name).toList) : isReserved c = false := by
  by_cases e : name = ""
  · subst e
    have : c = '_' := by simpa [safe] using h
    subst this
    decide
  · rw [toList_safe e, List.mem_map] at h
    obtain ⟨d, -, rfl⟩ := h
    exact isReserved_safeChar d

/-- A safe name is not empty. -/
theorem safe_ne_empty (name : String) : safe name ≠ "" := by
  by_cases e : name = ""
  · subst e
    decide
  · intro h
    have := toList_safe e
    rw [h] at this
    have empty : name.toList = [] := by simpa using this.symm
    exact e (String.toList_eq_nil_iff.1 empty)

/-- A name that is already safe stays as it is. -/
theorem safe_eq_self {name : String} (ne : name ≠ "")
    (h : ∀ c ∈ name.toList, isReserved c = false) : safe name = name := by
  apply String.toList_injective
  rw [toList_safe ne]
  conv => rhs; rw [← List.map_id name.toList]
  exact List.map_congr_left fun c hc => safeChar_eq_self (h c hc)

end ScenarioResults.Name
