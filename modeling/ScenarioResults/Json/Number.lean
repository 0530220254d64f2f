import ScenarioResults.Json.Scan

/-!
# Numbers of a JSON text

A numeral is scanned as its digits first. Its value is an integer when it has neither fraction nor
exponent and fits 64 bits, and a float otherwise: the leading digits that fit 64 bits, as a float, times
or divided by a power of ten that is a float too.
-/

namespace ScenarioResults.Json

/-- The parts of a numeral as they are written: the sign, the digits before and after the point, and
the exponent, which is negative when its flag is set. -/
structure Numeral where
  negative : Bool
  whole : List Nat
  fraction : Option (List Nat) := none
  exponent : Option (Bool × List Nat) := none
  deriving Repr, Inhabited

/-- The value of a decimal digit. -/
def digitValue (c : Char) : Nat := c.toNat - '0'.toNat

/-- Whether the character is a decimal digit. -/
def isDigit (c : Char) : Bool := '0' ≤ c && c ≤ '9'

/-- The digits in front and what is left after them. -/
def digits (cs : List Char) : List Nat × List Char :=
  ((cs.takeWhile isDigit).map digitValue, cs.dropWhile isDigit)

/-- What follows the leading digits is no longer than the whole. -/
theorem length_digits_le (cs : List Char) : (digits cs).2.length ≤ cs.length :=
  (List.dropWhile_suffix isDigit).length_le

/-- Scan the digits before the point: a single zero, or digits that do not begin with one. `cut` is the
fault of a numeral that the end of the text cuts short. -/
def wholeDigits (cut : Cause) : Scan (List Nat)
  | [] => .error (.atEnd cut)
  | c :: r =>
    if c = '0' then
      if r.head?.any isDigit then .error (.inside .invalidNumber r)
      else .ok ⟨[0], r, Nat.lt_succ_self _⟩
    else if isDigit c then
      .ok ⟨digitValue c :: (digits r).1, (digits r).2, Nat.lt_succ_of_le (length_digits_le r)⟩
    else .error (.inside .invalidNumber (c :: r))

/-- Scan a run of digits that must not be empty. -/
def someDigits (cut : Cause) : Scan (List Nat)
  | [] => .error (.atEnd cut)
  | c :: r =>
    if isDigit c then
      .ok ⟨digitValue c :: (digits r).1, (digits r).2, Nat.lt_succ_of_le (length_digits_le r)⟩
    else .error (.inside .invalidNumber (c :: r))

/-- What is shorter than a rest is no longer than the rest with two characters in front. -/
theorem length_le_of_lt_tail {b c : Char} {r r' : List Char} (lt : r'.length < r.length) :
    r'.length ≤ (c :: b :: r).length := by
  simp
  omega

/-- Scan an exponent, if the numeral has one. -/
def exponentPart (cut : Cause) (numeral : Numeral) :
    (cs : List Char) → Except Fault (Numeral × { r : List Char // r.length ≤ cs.length })
  | [] => .ok (numeral, ⟨[], Nat.le_refl _⟩)
  | c :: r =>
    if c = 'e' || c = 'E' then
      match r with
      | '+' :: r => do
        let ⟨ds, r', lt⟩ ← someDigits cut r
        return ({ numeral with exponent := some (false, ds) }, ⟨r', length_le_of_lt_tail lt⟩)
      | '-' :: r => do
        let ⟨ds, r', lt⟩ ← someDigits cut r
        return ({ numeral with exponent := some (true, ds) }, ⟨r', length_le_of_lt_tail lt⟩)
      | r => do
        let ⟨ds, r', lt⟩ ← someDigits cut r
        return ({ numeral with exponent := some (false, ds) }, ⟨r', Nat.le_succ_of_le (Nat.le_of_lt lt)⟩)
    else .ok (numeral, ⟨c :: r, Nat.le_refl _⟩)

/-- Scan a numeral from its minus sign or first digit. -/
def numeral (cut : Cause) : Scan Numeral := fun cs => do
  let (negative, ⟨unsigned, le⟩) : Bool × { r : List Char // r.length ≤ cs.length } :=
    match cs with
    | '-' :: r => (true, ⟨r, Nat.le_succ _⟩)
    | cs => (false, ⟨cs, length_le_self cs⟩)
  let ⟨whole, r, lt⟩ ← wholeDigits cut unsigned
  match r, lt with
  | '.' :: r, lt =>
    let ⟨fraction, r', lt'⟩ ← someDigits cut r
    let (n, ⟨r'', le''⟩) ← exponentPart cut { negative, whole, fraction := some fraction } r'
    return ⟨n, r'', by simp at lt; omega⟩
  | r, lt =>
    let (n, ⟨r'', le''⟩) ← exponentPart cut { negative, whole } r
    return ⟨n, r'', by omega⟩

/-! ## Values -/

/-- The value of a numeral: an integer that fits 64 bits, or a float. -/
inductive Number where
  | integer (i : Int)
  | float (x : Float)
  deriving Repr, Inhabited

/-- Append digits to a number as long as it fits 64 bits; the answer includes how many were. -/
def absorb (n : Nat) : List Nat → Nat × Nat
  | [] => (n, 0)
  | d :: ds =>
    if n * 10 + d < 18446744073709551616 then
      let (m, taken) := absorb (n * 10 + d) ds
      (m, taken + 1)
    else (n, 0)

/-- The float nearest to a power of ten. -/
def powerOfTen (n : Nat) : Float := Float.ofScientific 1 false n

/-- `x * 10 ^ e`, by a float power of ten. A quotient out of range of those powers is divided in steps;
`none` when the result is infinite. -/
def scale (x : Float) (e : Int) : Option Float :=
  if 0 ≤ e then
    if e ≤ 308 then
      let y := x * powerOfTen e.toNat
      if y.isInf then none else some y
    else if x == 0 then some x
    else none
  else if -308 ≤ e then some (x / powerOfTen (-e).toNat)
  else if x == 0 then some x
  else scale (x / powerOfTen 308) (e + 308)
termination_by (-e).toNat
decreasing_by omega

/-- The largest exponent that is read as a number: that of 31 bits. -/
def longestExponent : Nat := 2147483647

/-- Read the digits of an exponent; `inr` gives how many digits are left when it becomes too large. -/
def exponentValue (n : Nat) : List Nat → Nat ⊕ Nat
  | [] => .inl n
  | d :: ds => if n * 10 + d ≤ longestExponent then exponentValue (n * 10 + d) ds else .inr ds.length

namespace Numeral

/-- Give a float the sign of the numeral. -/
def signed (n : Numeral) (x : Float) : Float := if n.negative then -x else x

/-- The value of a numeral with a fraction, an exponent or too many digits, from its leading digits and
the exponent that they have without the written one. `rest` is what is left after the numeral. -/
def floatValue (n : Numeral) (rest : List Char) (m : Nat) (e : Int) : Except Fault Float :=
  match n.exponent with
  | none => finish e
  | some (down, ds) =>
    match exponentValue 0 ds with
    | .inl k => finish (if down then e - k else e + k)
    | .inr unread =>
      if m != 0 && !down then .error ⟨.numberOutOfRange, unread + byteLength rest⟩
      else .ok (n.signed 0.0)
where
  /-- Scale the leading digits. -/
  finish (e : Int) : Except Fault Float :=
    match scale (Float.ofNat m) e with
    | some x => .ok (n.signed x)
    | none => .error (.before .numberOutOfRange rest)

/-- The value of a numeral. A negative zero is a float, and so is a negative number below the least
64-bit integer. -/
def value (n : Numeral) (rest : List Char) : Except Fault Number :=
  let (m, taken) := absorb 0 n.whole
  let beyond := n.whole.length - taken
  match n.fraction, n.exponent with
  | none, none =>
    if beyond != 0 then (n.floatValue rest m beyond).map .float
    else if n.negative then
      if m = 0 || 9223372036854775808 < m then .ok (.float (-(Float.ofNat m))) else .ok (.integer (-(m : Int)))
    else .ok (.integer m)
  | some ds, _ =>
    let (m, taken) := absorb m ds
    (n.floatValue rest m ((beyond : Int) - taken)).map .float
  | none, some _ => (n.floatValue rest m beyond).map .float

end Numeral

/-- Scan a number. -/
def number : Scan Number := fun cs => do
  let ⟨n, r, lt⟩ ← numeral .endInValue cs
  return ⟨← n.value r, r, lt⟩

end ScenarioResults.Json
