import CapabilityGate.Binary64
import CapabilityGate.Decimal.Digits

/-!
# The fewest decimal digits that read back

A finite number other than zero owns an interval of reals that round to it. `shortest` looks at
decimal grids with 1, 2, … 17 digits; the first grid with a point in the interval gives the
answer, and of its points the one nearest to the number. Only the two grid points next to the
number have to be tried: if any point of a grid lies in the interval, one of these two does. Where
both are equally near, the parameter `tie` decides.
-/
namespace CapabilityGate.Decimal

/-- Which of two equally near decimals is taken. -/
inductive Tie where
  /-- The one whose last digit is even. -/
  | even
  /-- The larger one. -/
  | up
deriving DecidableEq, Repr

/-- **`c · 10^e`**: a decimal number by its digits and the exponent of the last one. -/
structure Scaled where
  coefficient : Nat
  exponent : Int
deriving DecidableEq, Repr

/-- The reals `num / den`; `low`, `num` and `high` share the denominator. The ends belong to the
interval when `closed` holds. -/
structure Interval where
  low : Nat
  num : Nat
  high : Nat
  den : Nat
  closed : Bool
deriving DecidableEq, Repr

/-- The interval of reals that round to `m · 2^q`: half a unit to each side, but a quarter below
a power of two, where the spacing changes. Its ends round to an even significand. -/
def roundingInterval (m : Nat) (q : Int) : Interval :=
  let below := if m = Binary64.hiddenBit ∧ -1074 < q then 1 else 2
  let scale := 1 <<< (q - 2).toNat
  { low := (4 * m - below) * scale
    num := 4 * m * scale
    high := (4 * m + 2) * scale
    den := 1 <<< (2 - q).toNat
    closed := m % 2 == 0 }

/-- Is `c · 10^k` in the interval. -/
def Interval.contains (i : Interval) (c : Nat) (k : Int) : Bool :=
  let point := c * tenTo k.toNat * i.den
  let unit := tenTo (-k).toNat
  if i.closed then i.low * unit ≤ point && point ≤ i.high * unit
  else i.low * unit < point && point < i.high * unit

/-- The exponent `e` with `10^(e-1) ≤ a/d < 10^e`, searched upwards from a lower bound. -/
def decimalExponent (a d : Nat) : Nat → Int → Int
  | 0, e => e
  | fuel + 1, e =>
    if a * tenTo (-e).toNat < d * tenTo e.toNat then e else decimalExponent a d fuel (e + 1)

/-- The grid point of exponent `k` in the interval nearest to the number, if there is one. -/
def Interval.nearest (tie : Tie) (i : Interval) (k : Int) : Option Nat :=
  let a := i.num * tenTo (-k).toNat
  let d := i.den * tenTo k.toNat
  let c := a / d
  let twice := 2 * (a % d)
  let lowerFirst :=
    twice < d || (twice == d && match tie with | .even => c % 2 == 0 | .up => false)
  let candidates := if lowerFirst then [c, c + 1] else [c + 1, c]
  candidates.find? fun x => 0 < x && i.contains x k

/-- Tries grids with more and more digits. -/
def Interval.firstHit (tie : Tie) (i : Interval) (e : Int) : Nat → Nat → Scaled
  | 0, n => ⟨(i.nearest tie (e - n)).getD 0, e - n⟩
  | fuel + 1, n =>
    match i.nearest tie (e - n) with
    | some c => ⟨c, e - n⟩
    | none => i.firstHit tie e fuel (n + 1)

/-- Moves trailing zeros of the coefficient into the exponent. -/
def Scaled.normalize : Nat → Scaled → Scaled
  | 0, s => s
  | fuel + 1, s =>
    if s.coefficient ≠ 0 ∧ s.coefficient % 10 = 0 then
      normalize fuel ⟨s.coefficient / 10, s.exponent + 1⟩
    else s

/-- **`shortest tie m q`** — the decimal with the fewest digits that reads back as `m · 2^q`. -/
def shortest (tie : Tie) (m : Nat) (q : Int) : Scaled :=
  let i := roundingInterval m q
  -- The binary exponent bounds the decimal one: 30102/100000 is below log₁₀ 2.
  let start := ((m.log2 : Int) + q) * 30102 / 100000 - 1
  let e := decimalExponent i.num i.den 8 start
  (i.firstHit tie e 16 1).normalize 20

end CapabilityGate.Decimal
