import ScenarioResults.Json.Scan

/-!
# Strings of a JSON text

Strings that are wanted are decoded: escapes are replaced, and surrogate escapes must come in pairs.
Strings that are skipped are only checked as far as needed to find their end.
-/

namespace ScenarioResults.Json

/-- The value of a hexadecimal digit. -/
def hexValue? (c : Char) : Option Nat :=
  if '0' ≤ c && c ≤ '9' then some (c.toNat - '0'.toNat)
  else if 'a' ≤ c && c ≤ 'f' then some (c.toNat - 'a'.toNat + 10)
  else if 'A' ≤ c && c ≤ 'F' then some (c.toNat - 'A'.toNat + 10)
  else none

/-- The value of four hexadecimal digits. -/
def hexQuad? (a b c d : Char) : Option Nat := do
  let a ← hexValue? a
  let b ← hexValue? b
  let c ← hexValue? c
  let d ← hexValue? d
  return ((a * 16 + b) * 16 + c) * 16 + d

/-- Scan four hexadecimal digits. Fewer than four bytes end the text; otherwise a fault lies after the
four bytes. -/
def hexQuad : Scan Nat := fun cs =>
  if byteLength (cs.take 4) < 4 then .error (.atEnd .endInText)
  else
    match cs with
    | a :: b :: c :: d :: r =>
      match hexQuad? a b c d with
      | some n => .ok ⟨n, r, by simp; omega⟩
      | none => .error ⟨.invalidEscape, byteLength cs - 4⟩
    | _ => .error ⟨.invalidEscape, byteLength cs - 4⟩

/-- Whether the code unit is the first half of a surrogate pair. -/
def isHighSurrogate (n : Nat) : Bool := 0xd800 ≤ n && n ≤ 0xdbff

/-- Whether the code unit is the second half of a surrogate pair. -/
def isLowSurrogate (n : Nat) : Bool := 0xdc00 ≤ n && n ≤ 0xdfff

/-- The character of a surrogate pair. -/
def joinSurrogates (high low : Nat) : Char :=
  Char.ofNat (0x10000 + (high - 0xd800) * 0x400 + (low - 0xdc00))

/-- Scan the escape that must follow the first half of a surrogate pair. -/
def secondSurrogate (high : Nat) : Scan Char
  | [] => .error (.atEnd .endInText)
  | '\\' :: [] => .error (.atEnd .endInText)
  | '\\' :: 'u' :: r => do
    let ⟨low, r', lt⟩ ← hexQuad r
    if isLowSurrogate low then return ⟨joinSurrogates high low, r', by simp; omega⟩
    else throw (.before .loneSurrogate r')
  | '\\' :: r => .error (.inside .unfinishedSurrogate r)
  | cs => .error (.inside .unfinishedSurrogate cs)

/-- Scan the digits of a `\u` escape, with its second half when it needs one. -/
def unicodeEscape : Scan Char := fun cs => do
  let ⟨n, r, lt⟩ ← hexQuad cs
  if isLowSurrogate n then throw (.before .loneSurrogate r)
  else if isHighSurrogate n then
    let ⟨c, r', lt'⟩ ← secondSurrogate n r
    return ⟨c, r', by omega⟩
  else return ⟨Char.ofNat n, r, lt⟩

/-- The character meant by a letter after a backslash. -/
def escapedChar? : Char → Option Char
  | '"' => some '"'
  | '\\' => some '\\'
  | '/' => some '/'
  | 'b' => some '\x08'
  | 'f' => some '\x0c'
  | 'n' => some '\n'
  | 'r' => some '\r'
  | 't' => some '\t'
  | _ => none

/-- Scan what follows a backslash, with a scanner for the digits after `\u`. -/
def escape {α : Type} (plain : Char → α) (unicode : Scan α) : Scan α
  | [] => .error (.atEnd .endInText)
  | c :: r =>
    match escapedChar? c with
    | some e => .ok ⟨plain e, r, length_lt_cons c r⟩
    | none =>
      if c = 'u' then (unicode r).map (·.widen (length_le_cons c r))
      else .error (.inside .invalidEscape (c :: r))

/-- Scan the rest of a string, up to and with its closing quote. -/
def stringTail : Scan (List Char)
  | [] => .error (.atEnd .endInText)
  | '"' :: r => .ok ⟨[], r, Nat.lt_succ_self _⟩
  | '\\' :: r => do
    let ⟨c, r', lt⟩ ← escape id unicodeEscape r
    let ⟨tail, r'', lt'⟩ ← stringTail r'
    return ⟨c :: tail, r'', by simp; omega⟩
  | c :: r =>
    if c.toNat < 0x20 then .error (.before .controlCharacter r)
    else do
      let ⟨tail, r', lt⟩ ← stringTail r
      return ⟨c :: tail, r', by simp; omega⟩
termination_by cs => cs.length
decreasing_by all_goals (simp; try omega)

/-- Scan the rest of a string whose value is not wanted. A `\u` escape needs its four digits only, and a
fault at a control character lies before it. -/
def skipStringTail : Scan Unit
  | [] => .error (.atEnd .endInText)
  | '"' :: r => .ok ⟨(), r, Nat.lt_succ_self _⟩
  | '\\' :: r => do
    let ⟨_, r', lt⟩ ← escape (fun _ => ()) (Scan.map (fun _ => ()) hexQuad) r
    let ⟨_, r'', lt'⟩ ← skipStringTail r'
    return ⟨(), r'', by simp; omega⟩
  | c :: r =>
    if c.toNat < 0x20 then .error (.before .controlCharacter (c :: r))
    else do
      let ⟨_, r', lt⟩ ← skipStringTail r
      return ⟨(), r', by simp; omega⟩
termination_by cs => cs.length
decreasing_by all_goals (simp; try omega)

end ScenarioResults.Json
