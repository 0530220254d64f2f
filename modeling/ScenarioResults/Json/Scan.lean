import ScenarioResults.Json.Fault

/-!
# Scanning a text

A scanner takes the characters that are left and gives a value with the characters left after it, and a
proof that it took at least one. Reading a list or an object repeats a scanner, and that proof is why
the repetition ends.
-/

namespace ScenarioResults.Json

/-- A value scanned from the front of `cs`, and what is left after it. At least one character was
taken. -/
structure Scanned (α : Type) (cs : List Char) where
  value : α
  rest : List Char
  shorter : rest.length < cs.length

/-- A scanner. -/
abbrev Scan (α : Type) := (cs : List Char) → Except Fault (Scanned α cs)

variable {α β : Type}

/-- What was scanned from the front of a shorter list was scanned from the front of a longer one. -/
def Scanned.widen {cs ds : List Char} (s : Scanned α cs) (le : cs.length ≤ ds.length) : Scanned α ds :=
  { s with shorter := Nat.lt_of_lt_of_le s.shorter le }

/-- Apply a function to the scanned value. -/
def Scanned.map {cs : List Char} (f : α → β) (s : Scanned α cs) : Scanned β cs :=
  { value := f s.value, rest := s.rest, shorter := s.shorter }

/-- Apply a function to the value of a scanner. -/
def Scan.map (f : α → β) (scan : Scan α) : Scan β := fun cs => (scan cs).map (Scanned.map f)

/-- Whether the character may stand between tokens. -/
def isBlank (c : Char) : Bool := c == ' ' || c == '\n' || c == '\t' || c == '\r'

/-- Drop the blanks in front of a token. -/
def skipBlank (cs : List Char) : List Char := cs.dropWhile isBlank

/-- Skipping blanks makes nothing longer. -/
theorem length_skipBlank_le (cs : List Char) : (skipBlank cs).length ≤ cs.length :=
  (List.dropWhile_suffix isBlank).length_le

/-- What follows the first character that is no blank is no longer than the whole. -/
theorem length_le_of_skipBlank {cs r : List Char} {c : Char} (h : skipBlank cs = c :: r) :
    r.length ≤ cs.length := by
  have le := length_skipBlank_le cs
  rw [h] at le
  exact Nat.le_of_succ_le le

theorem length_le_self (cs : List Char) : cs.length ≤ cs.length := Nat.le_refl _

theorem length_le_cons (c : Char) (r : List Char) : r.length ≤ (c :: r).length := Nat.le_succ _

theorem length_lt_cons (c : Char) (r : List Char) : r.length < (c :: r).length := Nat.lt_succ_self _

/-- A rest is shorter than anything that has room for it and one character more. -/
theorem length_lt_of_cons_le {cs r : List Char} {c : Char} (h : (c :: r).length ≤ cs.length) :
    r.length < cs.length := h

/-- Take the letters of a literal. -/
def letters : (wanted cs : List Char) → Except Fault { r : List Char // r.length ≤ cs.length }
  | [], cs => .ok ⟨cs, length_le_self cs⟩
  | _ :: _, [] => .error (.atEnd .endInValue)
  | w :: ws, c :: cs =>
    if c = w then (letters ws cs).map fun r => ⟨r.1, Nat.le_succ_of_le r.2⟩
    else .error (.inside .literalWanted (c :: cs))

/-- Scan the rest of a literal whose first letter is in front. -/
def literal (value : α) (tail : List Char) : Scan α
  | [] => .error (.atEnd .endInValue)
  | _ :: cs => (letters tail cs).map fun r => ⟨value, r.1, Nat.lt_succ_of_le r.2⟩

/-! ## Lists -/

/-- What comes next in a list or an object: its end, where `rest` begins with the closing character,
or one more item somewhere in front of `rest`. -/
inductive Next (cs : List Char) where
  | stop (rest : List Char) (le : rest.length ≤ cs.length)
  | item (rest : List Char) (le : rest.length ≤ cs.length)

/-- Look for the next element of an array. -/
def nextElement (first : Bool) (cs : List Char) : Except Fault (Next cs) :=
  have le := length_skipBlank_le cs
  match h : skipBlank cs with
  | [] => .error (.atEnd .endInList)
  | ']' :: r => .ok (.stop (']' :: r) (h ▸ le))
  | c :: r =>
    if first then .ok (.item (c :: r) (h ▸ le))
    else if c = ',' then
      have le' := length_skipBlank_le r
      match h' : skipBlank r with
      | [] => .error (.atEnd .endInValue)
      | ']' :: r' => .error (.inside .trailingComma (']' :: r'))
      | d :: r' => .ok (.item (d :: r') (by rw [h] at le; rw [h'] at le'; simp at le le' ⊢; omega))
    else .error (.inside .listSeparatorWanted (c :: r))

/-- Take the closing bracket of an array whose wanted elements have been taken. -/
def closeList (value : α) : Scan α := fun cs =>
  have le := length_skipBlank_le cs
  match h : skipBlank cs with
  | [] => .error (.atEnd .endInList)
  | ']' :: r => .ok ⟨value, r, by rw [h] at le; simp at le; omega⟩
  | ',' :: r =>
    match skipBlank r with
    | ']' :: r' => .error (.inside .trailingComma (']' :: r'))
    | r' => .error (.inside .trailingCharacters r')
  | c :: r => .error (.inside .trailingCharacters (c :: r))

/-- Scan the elements of an array after its opening bracket. -/
def elements (scan : Scan α) (first : Bool) : Scan (List α) := fun cs => do
  match ← nextElement first cs with
  | .stop rest le => return (← closeList [] rest).widen le
  | .item rest le =>
    let ⟨a, rest', lt⟩ ← scan rest
    let ⟨as, rest'', lt'⟩ ← elements scan false rest'
    return ⟨a :: as, rest'', by omega⟩
termination_by cs => cs.length
decreasing_by omega

end ScenarioResults.Json
