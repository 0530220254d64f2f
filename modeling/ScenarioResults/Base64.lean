import ScenarioResults.Event

/-!
# Base64

The standard alphabet with canonical padding: symbols come in quads, only the last quad may end in one
or two padding signs, and the bits of the last symbol that no byte uses are zero. `Base64.decode` says
of every other text what is wrong with it and where.
-/

namespace ScenarioResults.Base64

/-- Why a text is no base64: a byte that may not stand at its offset, a number of symbols that no
bytes have, a last symbol with unused bits that are not zero, or padding that is missing or too
long. -/
inductive Fault where
  | invalidSymbol (byte offset : Nat)
  | invalidLength (length : Nat)
  | invalidLastSymbol (byte offset : Nat)
  | invalidPadding
  deriving DecidableEq, Repr, Inhabited

/-- The text of a fault. -/
def Fault.message : Fault → String
  | invalidSymbol byte offset =>
    "Invalid symbol " ++ toString byte ++ ", offset " ++ toString offset ++ "."
  | invalidLength length => "Invalid input length: " ++ toString length
  | invalidLastSymbol byte offset =>
    "Invalid last symbol " ++ toString byte ++ ", offset " ++ toString offset ++ "."
  | invalidPadding => "Invalid padding"

/-- The padding sign. -/
def pad : Nat := '='.toNat

/-- The six bits that a byte of the text stands for. -/
def bits? (byte : Nat) : Option Nat :=
  if 'A'.toNat ≤ byte ∧ byte ≤ 'Z'.toNat then some (byte - 'A'.toNat)
  else if 'a'.toNat ≤ byte ∧ byte ≤ 'z'.toNat then some (byte - 'a'.toNat + 26)
  else if '0'.toNat ≤ byte ∧ byte ≤ '9'.toNat then some (byte - '0'.toNat + 52)
  else if byte = '+'.toNat then some 62
  else if byte = '/'.toNat then some 63
  else none

/-- The byte that stands for six bits. -/
def symbol (bits : Nat) : Nat :=
  if bits < 26 then 'A'.toNat + bits
  else if bits < 52 then 'a'.toNat + (bits - 26)
  else if bits < 62 then '0'.toNat + (bits - 52)
  else if bits = 62 then '+'.toNat
  else '/'.toNat

/-! ## Reading -/

/-- Read the symbols before the last quad, where padding may not stand. -/
def leading (offset : Nat) : List Nat → Except Fault (List Nat)
  | [] => .ok []
  | byte :: rest =>
    match bits? byte with
    | none => .error (.invalidSymbol byte offset)
    | some b => (leading (offset + 1) rest).map (b :: ·)

/-- Read the last quad, of which `index` bytes have been read: the bits of its symbols and the number of
padding signs. `firstPad` is the offset of the first padding sign. -/
def lastQuad (index offset : Nat) (firstPad : Option Nat) : List Nat → Except Fault (List Nat × Nat)
  | [] => .ok ([], 0)
  | byte :: rest =>
    if byte = pad then
      if index < 2 then .error (.invalidSymbol byte offset)
      else
        (lastQuad (index + 1) (offset + 1) (firstPad.or (some offset)) rest).map fun (bs, pads) =>
          (bs, pads + 1)
    else
      match firstPad, bits? byte with
      | some first, _ => .error (.invalidSymbol pad first)
      | none, none => .error (.invalidSymbol byte offset)
      | none, some b =>
        (lastQuad (index + 1) (offset + 1) none rest).map fun (bs, pads) => (b :: bs, pads)

/-- The bytes that groups of six bits make; bits left over are dropped. -/
def join : List Nat → Bytes
  | a :: b :: c :: d :: rest =>
    UInt8.ofNat (a * 4 + b / 16) :: UInt8.ofNat (b % 16 * 16 + c / 4) ::
      UInt8.ofNat (c % 4 * 64 + d) :: join rest
  | [a, b, c] => [UInt8.ofNat (a * 4 + b / 16), UInt8.ofNat (b % 16 * 16 + c / 4)]
  | [a, b] => [UInt8.ofNat (a * 4 + b / 16)]
  | _ => []

/-- Number of bits of the last symbol that no byte uses. -/
def unusedBits (symbols : Nat) : Nat :=
  if symbols % 4 = 2 then 4 else if symbols % 4 = 3 then 2 else 0

/-- Decode the bytes of a text. -/
def decode (text : List Nat) : Except Fault Bytes := do
  let length := text.length
  if length % 4 = 1 then
    if let some last := text.getLast? then
      if last ≠ pad ∧ bits? last = none then throw (.invalidSymbol last (length - 1))
  let start := length - (if length % 4 = 0 then min 4 length else length % 4)
  let front ← leading 0 (text.take start)
  let (back, pads) ← lastQuad 0 start none (text.drop start)
  if length ≠ 0 ∧ back.length < 2 then throw (.invalidLength (start + back.length))
  if (back.length + pads) % 4 ≠ 0 then throw .invalidPadding
  if let some last := back.getLast? then
    if last % Nat.pow 2 (unusedBits back.length) ≠ 0 then
      let offset := start + back.length - 1
      throw (.invalidLastSymbol (symbol last) offset)
  return join (front ++ back)

/-- Decode a text, or tell what is wrong with it. -/
def decodeText (text : String) : Except String Bytes :=
  (decode (text.toUTF8.toList.map UInt8.toNat)).mapError Fault.message

end ScenarioResults.Base64
