import ScenarioResults.Json.Number
import ScenarioResults.Json.Text

/-!
# Values that are not wanted

A value under an unknown key is skipped, however deep it is. Only the brackets that enclose the current
place matter, so they are kept as a stack. Its faults differ a little from those of wanted values: a
comma before a closing bracket is a missing value or key.
-/

namespace ScenarioResults.Json

/-- A bracket that encloses the current place. -/
inductive Frame where
  | list
  | object
  deriving DecidableEq, Repr, Inhabited

namespace Frame

/-- The character that closes the bracket. -/
def closing : Frame → Char
  | list => ']'
  | object => '\x7d'

/-- The cause when the text ends inside the bracket. -/
def cut : Frame → Cause
  | list => .endInList
  | object => .endInObject

/-- The cause when a value inside the bracket is followed by neither a comma nor its end. -/
def separatorWanted : Frame → Cause
  | list => .listSeparatorWanted
  | object => .objectSeparatorWanted

end Frame

/-- Scan the colon after a key. -/
def colon : Scan Unit := fun cs =>
  have le := length_skipBlank_le cs
  match h : skipBlank cs with
  | [] => .error (.atEnd .endInObject)
  | ':' :: r => .ok ⟨(), r, by rw [h] at le; simp at le; omega⟩
  | c :: r => .error (.inside .colonWanted (c :: r))

/-- What is left after going on to the next place where a value stands, or after the outermost one. -/
abbrev Place (cs : List Char) := Option (List Frame) × { r : List Char // r.length ≤ cs.length }

/-- Go to the next value directly inside a bracket: in an object its key and colon come first. -/
def enter (stack : List Frame) (frame : Frame) (cs : List Char) : Except Fault (Place cs) :=
  match frame with
  | .list => .ok (some (.list :: stack), ⟨cs, length_le_self cs⟩)
  | .object =>
    have le := length_skipBlank_le cs
    match h : skipBlank cs with
    | [] => .error (.atEnd .endInObject)
    | '"' :: r => do
      let ⟨_, r', lt⟩ ← skipStringTail r
      let ⟨_, r'', lt'⟩ ← colon r'
      return (some (.object :: stack), ⟨r'', by rw [h] at le; simp at le; omega⟩)
    | c :: r => .error (.inside .keyWanted (c :: r))

/-- Go on after a complete value. -/
def afterValue : (stack : List Frame) → (cs : List Char) → Except Fault (Place cs)
  | [], cs => .ok (none, ⟨cs, length_le_self cs⟩)
  | frame :: stack, cs =>
    have le := length_skipBlank_le cs
    match h : skipBlank cs with
    | [] => .error (.atEnd frame.cut)
    | c :: r =>
      have lt : r.length ≤ cs.length := by rw [h] at le; simp at le; omega
      if c = ',' then (enter stack frame r).map fun (s, r') => (s, ⟨r'.1, Nat.le_trans r'.2 lt⟩)
      else if c = frame.closing then
        (afterValue stack r).map fun (s, r') => (s, ⟨r'.1, Nat.le_trans r'.2 lt⟩)
      else .error (.inside frame.separatorWanted (c :: r))

/-- Go on after an opening bracket. -/
def afterOpening (stack : List Frame) (frame : Frame) (cs : List Char) : Except Fault (Place cs) :=
  have le := length_skipBlank_le cs
  match h : skipBlank cs with
  | [] => .error (.atEnd frame.cut)
  | c :: r =>
    if c = frame.closing then
      (afterValue stack r).map fun (s, r') =>
        (s, ⟨r'.1, by have := r'.2; rw [h] at le; simp at le; omega⟩)
    else
      (enter stack frame (c :: r)).map fun (s, r') =>
        (s, ⟨r'.1, by have := r'.2; rw [h] at le; omega⟩)

/-- Take a scalar that is not wanted. -/
def skipScalar : Scan Unit
  | [] => .error (.atEnd .endInValue)
  | c :: r =>
    if c = 'n' then literal () "ull".toList (c :: r)
    else if c = 't' then literal () "rue".toList (c :: r)
    else if c = 'f' then literal () "alse".toList (c :: r)
    else if c = '"' then (skipStringTail r).map (·.widen (length_le_cons c r))
    else if c = '-' || isDigit c then
      ((numeral .invalidNumber) (c :: r)).map (Scanned.map fun _ => ())
    else .error (.inside .valueWanted (c :: r))

/-- Skip a value inside the brackets of the stack, and all that follows up to the outermost end. -/
def skipFrom (stack : List Frame) : Scan Unit := fun cs =>
  have le := length_skipBlank_le cs
  match h : skipBlank cs with
  | [] => .error (.atEnd .endInValue)
  | c :: r => do
    let (next, ⟨r', le'⟩) : Place r ←
      if c = '[' then afterOpening stack .list r
      else if c = '\x7b' then afterOpening stack .object r
      else do
        let ⟨_, r', lt⟩ ← skipScalar (c :: r)
        let (s, ⟨r'', le''⟩) ← afterValue stack r'
        pure (s, ⟨r'', by simp at lt; omega⟩)
    have lt : r'.length < cs.length := by rw [h] at le; simp at le; omega
    match next with
    | none => return ⟨(), r', lt⟩
    | some stack => return (← skipFrom stack r').widen (Nat.le_of_lt lt)
termination_by cs => cs.length
decreasing_by exact lt

/-- Skip one value. -/
def skipValue : Scan Unit := skipFrom []

end ScenarioResults.Json
