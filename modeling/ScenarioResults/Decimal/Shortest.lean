/-!
# Shortest decimals of floats

The shortest decimal of a finite float is the one with the fewest digits that reads back as the same
float, the nearest such when there are several. A float stands for an interval of reals, those that
round to it; on the grid of decimals with `n` digits the only candidates are the two neighbours of the
exact value. `Shape` says how the digits are laid out.
-/

namespace ScenarioResults.Decimal

/-- A positive rational; the denominator is positive. -/
structure Ratio where
  num : Nat
  den : Nat
  deriving Repr, Inhabited

namespace Ratio

/-- `m * 2 ^ q`. -/
def scaled2 (m : Nat) (q : Int) : Ratio :=
  if 0 ≤ q then ⟨m * Nat.pow 2 q.toNat, 1⟩ else ⟨m, Nat.pow 2 (-q).toNat⟩

/-- `a * 10 ^ e`. -/
def scaled10 (a : Nat) (e : Int) : Ratio :=
  if 0 ≤ e then ⟨a * Nat.pow 10 e.toNat, 1⟩ else ⟨a, Nat.pow 10 (-e).toNat⟩

/-- Whether `a ≤ b`. -/
def le (a b : Ratio) : Bool := a.num * b.den ≤ b.num * a.den

/-- Whether `a < b`. -/
def lt (a b : Ratio) : Bool := a.num * b.den < b.num * a.den

/-- The distance of `a` and `b` over the common denominator `a.den * b.den`. -/
def gap (a b : Ratio) : Nat :=
  let x := a.num * b.den
  let y := b.num * a.den
  (x - y) + (y - x)

/-- The whole part of `a / 10 ^ e`. -/
def floorAt (a : Ratio) (e : Int) : Nat :=
  if 0 ≤ e then a.num / (a.den * Nat.pow 10 e.toNat) else a.num * Nat.pow 10 (-e).toNat / a.den

end Ratio

/-- A positive finite float: the value `m * 2 ^ q` and the interval that rounds to it, which is
closed when its ends round to the value too. -/
structure Binade where
  value : Ratio
  lower : Ratio
  upper : Ratio
  closed : Bool
  deriving Repr, Inhabited

namespace Binade

/-- Decode the bits of a positive finite float. At a power of two the floats below are twice as dense. -/
def ofBits (bits : Nat) : Binade :=
  let exponent := bits / Nat.pow 2 52 % Nat.pow 2 11
  let fraction := bits % Nat.pow 2 52
  let m := if exponent = 0 then fraction else fraction + Nat.pow 2 52
  let q : Int := (max exponent 1 : Nat) - 1075
  let dense := fraction = 0 && 1 < exponent
  { value := Ratio.scaled2 m q
    lower := if dense then Ratio.scaled2 (4 * m - 1) (q - 2) else Ratio.scaled2 (2 * m - 1) (q - 1)
    upper := Ratio.scaled2 (2 * m + 1) (q - 1)
    closed := m % 2 = 0 }

/-- Whether a rational reads back as the float. -/
def covers (b : Binade) (r : Ratio) : Bool :=
  if b.closed then b.lower.le r && r.le b.upper else b.lower.lt r && r.lt b.upper

/-- The neighbour of the value on the grid `10 ^ e` that reads back as the float, the nearer of two and
of two equally near ones the even one. -/
def onGrid (b : Binade) (e : Int) : Option Nat :=
  let a := b.value.floorAt e
  let below := Ratio.scaled10 a e
  let above := Ratio.scaled10 (a + 1) e
  match b.covers below && 0 < a, b.covers above with
  | true, true =>
    let down := b.value.gap below * above.den
    let up := b.value.gap above * below.den
    some (if down < up || (down == up && a % 2 == 0) then a else a + 1)
  | true, false => some a
  | false, true => some (a + 1)
  | false, false => none

/-- The place of the first digit: the least `k` with `value < 10 ^ k`, searched upwards. -/
def magnitude (b : Binade) : Int :=
  let start : Int := -324
  let places := (List.range 640).find? fun (i : Nat) =>
    b.value.lt (Ratio.scaled10 1 (start + i))
  start + (places.getD 0 : Nat)

end Binade

/-- The digits of a number and the exponent of ten of the last one. -/
structure Digits where
  number : Nat
  exponent : Int
  deriving Repr, Inhabited

/-- Move the zeros at the end into the exponent; at most `fuel` of them. -/
def Digits.strip : Nat → Digits → Digits
  | 0, d => d
  | fuel + 1, d =>
    if d.number % 10 = 0 && d.number != 0 then strip fuel ⟨d.number / 10, d.exponent + 1⟩ else d

/-- The shortest digits of a positive finite float. Seventeen always suffice. -/
def shortest (bits : Nat) : Digits :=
  let b := Binade.ofBits bits
  let k := b.magnitude
  let found := (List.range 17).findSome? fun (i : Nat) =>
    (b.onGrid (k - (i + 1 : Nat))).map fun a => Digits.mk a (k - (i + 1 : Nat))
  (found.getD ⟨b.value.floorAt (k - 17), k - 17⟩).strip 17

/-- How the digits of a float are laid out. Positional notation is used when the first digit is at
most `longestWhole` places before the point and with at most `longestZeros` zeros after the point;
`exponentPlus` stands for the sign of a positive exponent. -/
structure Shape where
  longestWhole : Nat
  longestZeros : Nat
  exponentPlus : String

/-- Up to sixteen places before the point and four zeros after it, and a signed exponent. -/
def Shape.diagnostic : Shape := { longestWhole := 16, longestZeros := 4, exponentPlus := "+" }

/-- Lay out digits. A whole number keeps `.0`. -/
def Shape.layout (shape : Shape) (d : Digits) : String :=
  let digits := toString d.number
  let n := digits.length
  let point : Int := n + d.exponent
  if 0 ≤ d.exponent && point ≤ shape.longestWhole then
    digits ++ String.ofList (List.replicate d.exponent.toNat '0') ++ ".0"
  else if 0 < point && point ≤ shape.longestWhole then
    String.ofList (digits.toList.take point.toNat) ++ "." ++
      String.ofList (digits.toList.drop point.toNat)
  else if -(shape.longestZeros : Int) ≤ point && point ≤ 0 then
    "0." ++ String.ofList (List.replicate (-point).toNat '0') ++ digits
  else
    let first := String.ofList (digits.toList.take 1)
    let rest := digits.toList.drop 1
    let e := point - 1
    let sign := if 0 ≤ e then shape.exponentPlus else "-"
    first ++ (if rest.isEmpty then "" else "." ++ String.ofList rest) ++ "e" ++ sign ++
      toString e.natAbs

/-- The text of a finite float. -/
def Shape.text (shape : Shape) (x : Float) : String :=
  let bits := x.toBits.toNat
  let magnitude := bits % Nat.pow 2 63
  let sign := if Nat.pow 2 63 ≤ bits then "-" else ""
  sign ++ (if magnitude = 0 then "0.0" else shape.layout (shortest magnitude))

end ScenarioResults.Decimal
