import ScenarioResults.Json.Skip

/-!
# Reading typed values

Readers for the types that occur in documents: strings, bounded integers, optional values, lists and
records. A record is written as an object or as an array of its fields in order. All its fields have
defaults; unknown keys are skipped, and a repeated key is a fault.
-/

namespace ScenarioResults.Json

variable {α : Type}

/-! ## Scalars -/

/-- What stands at the front of the text, with what is left after it: a scalar is taken, a bracket is
not. -/
def found : (cs : List Char) → Except Fault (Found × List Char)
  | [] => .error (.atEnd .endInValue)
  | c :: r =>
    if c = 'n' then (literal Found.null "ull".toList (c :: r)).map fun s => (s.value, s.rest)
    else if c = 't' then
      (literal (Found.boolean true) "rue".toList (c :: r)).map fun s => (s.value, s.rest)
    else if c = 'f' then
      (literal (Found.boolean false) "alse".toList (c :: r)).map fun s => (s.value, s.rest)
    else if c = '"' then (stringTail r).map fun s => (.text (String.ofList s.value), s.rest)
    else if c = '-' || isDigit c then
      (number (c :: r)).map fun s =>
        (match s.value with
          | .integer i => .integer i
          | .float x => .float x, s.rest)
    else if c = '[' then .ok (.sequence, c :: r)
    else if c = '\x7b' then .ok (.map, c :: r)
    else .error (.inside .valueWanted (c :: r))

/-- The fault of a value that is not of the wanted type. -/
def mismatch (wanted : String) (cs : List Char) : Fault :=
  match found cs with
  | .error fault => fault
  | .ok (what, rest) => .before (.wrongType what wanted) rest

/-- Read a string. -/
def text : Scan String := fun cs =>
  have le := length_skipBlank_le cs
  match h : skipBlank cs with
  | '"' :: r =>
    (stringTail r).map fun s =>
      (s.map String.ofList).widen (by rw [h] at le; simp at le; omega)
  | cs' => .error (mismatch "a string" cs')

/-- Read an integer from 0 up to `limit`. -/
def natural (wanted : String) (limit : Nat) : Scan Nat := fun cs =>
  have le := length_skipBlank_le cs
  match h : skipBlank cs with
  | [] => .error (mismatch wanted [])
  | c :: r =>
    if c = '-' || isDigit c then do
      let ⟨n, rest, lt⟩ ← number (c :: r)
      match n with
      | .integer i =>
        if 0 ≤ i && i ≤ limit then return ⟨i.toNat, rest, by rw [h] at le; omega⟩
        else throw (.before (.wrongValue i wanted) rest)
      | .float x => throw (.before (.wrongType (.float x) wanted) rest)
    else .error (mismatch wanted (c :: r))

/-- Read an integer of 32 bits. -/
def word32 : Scan UInt32 := Scan.map UInt32.ofNat (natural "u32" 4294967295)

/-- Read an integer of 64 bits. -/
def word64 : Scan UInt64 := Scan.map UInt64.ofNat (natural "u64" 18446744073709551615)

/-- Read a value that may be `null`. -/
def optional (scan : Scan α) : Scan (Option α) := fun cs =>
  have le := length_skipBlank_le cs
  match h : skipBlank cs with
  | 'n' :: r => (literal none "ull".toList ('n' :: r)).map (·.widen (h ▸ le))
  | cs' => (scan cs').map fun s => (s.map some).widen (h ▸ le)

/-- Read a list. -/
def list (scan : Scan α) : Scan (List α) := fun cs =>
  have le := length_skipBlank_le cs
  match h : skipBlank cs with
  | '[' :: r =>
    (elements scan true r).map (·.widen (by rw [h] at le; simp at le; omega))
  | cs' => .error (mismatch "a sequence" cs')

/-! ## Records -/

/-- A field of a record: its keys, the first of which names it, and a reader for the change that its
value makes to the record. -/
structure Field (α : Type) where
  key : String
  aliases : List String := []
  read : Scan (α → α)

/-- Whether a key means the field. -/
def Field.hasKey (f : Field α) (key : String) : Bool := f.key == key || f.aliases.contains key

/-- A field whose value is put into the record by `put`. -/
def field {β : Type} (key : String) (read : Scan β) (put : α → β → α) (aliases : List String := []) :
    Field α :=
  { key, aliases, read := read.map fun b a => put a b }

/-- Read the fields of a record from the elements of an array; the fields of a short one keep what they
have, and more elements than fields are a fault. -/
def fieldsInOrder : (fields : List (Field α)) → (first : Bool) → (a : α) → Scan α
  | [], _, a => closeList a
  | f :: fields, first, a => fun cs => do
    match ← nextElement first cs with
    | .stop rest le => return (← closeList a rest).widen le
    | .item rest le =>
      let ⟨change, rest', lt⟩ ← f.read rest
      let s ← fieldsInOrder fields false (change a) rest'
      return s.widen (by omega)

/-- Look for the next key of an object; the rest of an item begins after its opening quote. -/
def nextKey (first : Bool) (cs : List Char) : Except Fault (Next cs) :=
  have le := length_skipBlank_le cs
  match h : skipBlank cs with
  | [] => .error (.atEnd .endInObject)
  | '\x7d' :: r => .ok (.stop ('\x7d' :: r) (h ▸ le))
  | c :: r =>
    if first then
      if c = '"' then .ok (.item r (length_le_of_skipBlank h))
      else .error (.inside .keyWanted (c :: r))
    else if c = ',' then
      have le' := length_skipBlank_le r
      match h' : skipBlank r with
      | [] => .error (.atEnd .endInValue)
      | '"' :: r' => .ok (.item r' (by rw [h] at le; rw [h'] at le'; simp at le le'; omega))
      | '\x7d' :: r' => .error (.inside .trailingComma ('\x7d' :: r'))
      | d :: r' => .error (.inside .keyWanted (d :: r'))
    else .error (.inside .objectSeparatorWanted (c :: r))

/-- The fault of a repeated key: it lies after the blanks that follow, and after a closing brace right
there. -/
def duplicate (name : String) (rest : List Char) : Fault :=
  match skipBlank rest with
  | '\x7d' :: r => .before (.duplicateField name) r
  | r => .before (.duplicateField name) r

/-- Read the members of an object. `seen` are the names of the fields read so far. -/
def members (fields : List (Field α)) (first : Bool) (seen : List String) (a : α) : Scan α :=
  fun cs => do
    match ← nextKey first cs with
    | .stop rest le =>
      match rest, le with
      | [], _ => throw (.atEnd .endInObject)
      | _ :: r, le => return ⟨a, r, length_lt_of_cons_le le⟩
    | .item rest le =>
      let ⟨key, r, lt⟩ ← stringTail rest
      match fields.find? (·.hasKey (String.ofList key)) with
      | none =>
        let ⟨_, r', lt'⟩ ← colon r
        let ⟨_, r'', lt''⟩ ← skipValue r'
        return (← members fields false seen a r'').widen (by omega)
      | some f =>
        if seen.contains f.key then throw (duplicate f.key r)
        else
          let ⟨_, r', lt'⟩ ← colon r
          let ⟨change, r'', lt''⟩ ← f.read r'
          return (← members fields false (f.key :: seen) (change a) r'').widen (by omega)
termination_by cs => cs.length
decreasing_by all_goals omega

/-- Read a record, starting from its defaults. -/
def record (title : String) (fields : List (Field α)) (defaults : α) : Scan α := fun cs =>
  have le := length_skipBlank_le cs
  match h : skipBlank cs with
  | '[' :: r =>
    (fieldsInOrder fields true defaults r).map (·.widen (by rw [h] at le; simp at le; omega))
  | '\x7b' :: r =>
    (members fields true [] defaults r).map (·.widen (by rw [h] at le; simp at le; omega))
  | cs' => .error (mismatch ("struct " ++ title) cs')

/-- Read a whole text that holds one value and nothing else. -/
def whole (scan : Scan α) (s : String) : Except Fault α := do
  let ⟨a, rest, _⟩ ← scan s.toList
  match skipBlank rest with
  | [] => return a
  | r => throw (.inside .trailingCharacters r)

end ScenarioResults.Json
