/-!
# Shortest decimals

A positive binary number is written with the fewest decimal digits that read back to it. The reals
that read back to `m * 2 ^ q` form an interval around it; of the grids of one, two, … significant
digits the first one with a point in that interval is taken. All arithmetic is exact.
-/

namespace ShaderEffect

/-- The decimal number `digits * 10 ^ exponent`. -/
structure Decimal where
  digits : Nat
  exponent : Int
  deriving DecidableEq

namespace Decimal

/-- The parts of a float: its sign and its magnitude. -/
inductive Magnitude where
  | notANumber
  | infinite
  | zero
  /-- The number `mantissa * 2 ^ exponent`. If `narrow`, its lower neighbour is half as far away
  as its upper one. -/
  | finite (mantissa : Nat) (exponent : Int) (narrow : Bool)
  deriving DecidableEq

/-- Whether the sign bit of a float is set. -/
def isNegative (x : Float) : Bool :=
  x.toBits >>> 63 == 1

/-- The magnitude that the bits of a float encode. -/
def magnitude (x : Float) : Magnitude :=
  let bits : Nat := x.toBits.toNat
  let exponent : Nat := bits / 0x10000000000000 % 0x800
  let fraction : Nat := bits % 0x10000000000000
  if exponent = 2047 then
    if fraction = 0 then .infinite else .notANumber
  else if exponent = 0 then
    if fraction = 0 then .zero else .finite fraction (-1074) false
  else
    .finite (0x10000000000000 + fraction) ((exponent : Int) - 1075) (fraction = 0 && 1 < exponent)

/-- A quotient `numerator / denominator` with the ends of the interval that reads back to it, over
the same denominator. The ends belong to the interval if `closed`. -/
structure Interval where
  value : Nat
  lower : Nat
  upper : Nat
  denominator : Nat
  closed : Bool

/-- The interval of the reals nearer to `mantissa * 2 ^ exponent` than to its neighbours. A tie
reads back to the even mantissa. -/
def interval (mantissa : Nat) (exponent : Int) (narrow : Bool) : Interval :=
  let scale := Nat.pow 2 (exponent - 2).toNat
  { value := 4 * mantissa * scale
    lower := (4 * mantissa - if narrow then 1 else 2) * scale
    upper := (4 * mantissa + 2) * scale
    denominator := Nat.pow 2 (2 - exponent).toNat
    closed := mantissa % 2 == 0 }

/-- The interval in units of `10 ^ k`. -/
def Interval.inUnits (i : Interval) (k : Int) : Interval :=
  let up := Nat.pow 10 (-k).toNat
  { i with
    value := i.value * up
    lower := i.lower * up
    upper := i.upper * up
    denominator := i.denominator * Nat.pow 10 k.toNat }

/-- Whether a natural number lies in the interval. -/
def Interval.contains (i : Interval) (n : Nat) : Bool :=
  let scaled := n * i.denominator
  if i.closed then i.lower ≤ scaled && scaled ≤ i.upper
  else i.lower < scaled && scaled < i.upper

/-- The natural number next to the value that lies in the interval. Of two the nearer one counts,
and the larger one if both are equally near. -/
def Interval.nearest? (i : Interval) : Option Nat :=
  let below := i.value / i.denominator
  let above := below + 1
  match i.contains below, i.contains above with
  | true, true =>
    if i.value - below * i.denominator < above * i.denominator - i.value then some below
    else some above
  | true, false => some below
  | false, true => some above
  | false, false => none

/-- How many powers of ten below one the value of a quotient less than one starts. -/
def leadingZeros (denominator : Nat) : Nat → Nat → Nat
  | 0, _ => 0
  | fuel + 1, value =>
    if denominator ≤ value then 0 else leadingZeros denominator fuel (10 * value) + 1

/-- The exponent of the first significant digit of the value. -/
def Interval.leadingExponent (i : Interval) : Int :=
  if i.denominator ≤ i.value then (Nat.toDigits 10 (i.value / i.denominator)).length - 1
  else -(leadingZeros i.denominator 400 i.value)

/-- The first hit on the grids of `count`, `count + 1`, … significant digits. -/
def Interval.firstHit (i : Interval) (leading : Int) : Nat → Int → Decimal
  | 0, _ => ⟨i.value / i.denominator, 0⟩
  | fuel + 1, count =>
    let k := leading + 1 - count
    match (i.inUnits k).nearest? with
    | some digits => ⟨digits, k⟩
    | none => firstHit i leading fuel (count + 1)

/-- Drops the zeros at the end of the digits. -/
def dropZeros : Nat → Decimal → Decimal
  | 0, d => d
  | fuel + 1, d =>
    if d.digits % 10 = 0 ∧ d.digits ≠ 0 then dropZeros fuel ⟨d.digits / 10, d.exponent + 1⟩ else d

/-- The decimal with the fewest digits that reads back to the given binary number. Seventeen
digits always suffice. -/
def shortest (mantissa : Nat) (exponent : Int) (narrow : Bool) : Decimal :=
  let i := interval mantissa exponent narrow
  dropZeros 20 (i.firstHit i.leadingExponent 18 1)

end Decimal

end ShaderEffect
