/-!
# Binary64

Floating-point numbers of the binary64 format as their 64 bits. `view` reads the bits as a special
value or as `± m · 2^q`; `ofRatio` rounds an exact quotient of natural numbers to the nearest
number, a tie to the even significand. Equality `same` is the comparison of the format: no NaN is
equal to anything and the two zeros are equal. Everything is exact arithmetic on natural numbers,
so every definition here can be evaluated and reasoned about.
-/
namespace CapabilityGate

/-- A number of the binary64 format, by its bits: sign, eleven bits of exponent, 52 of fraction. -/
structure Binary64 where
  bits : UInt64
deriving DecidableEq, Repr, Inhabited

namespace Binary64

/-- What the bits of a number stand for: `finite negative m q` is `± m · 2^q`. -/
inductive View where
  | nan
  | infinite (negative : Bool)
  | finite (negative : Bool) (m : Nat) (q : Int)
deriving DecidableEq, Repr

/-- The weight of the sign bit. -/
def signBit : Nat := 1 <<< 63

/-- The weight of the lowest bit of the exponent. The significand of a number that is not subnormal
has this bit besides its fraction. -/
def hiddenBit : Nat := 1 <<< 52

/-- Is the sign bit set. -/
def negative (x : Binary64) : Bool := signBit ≤ x.bits.toNat

/-- All bits but the sign. -/
def magnitude (x : Binary64) : Nat := x.bits.toNat % signBit

/-- The biased exponent. -/
def exponentField (x : Binary64) : Nat := x.magnitude / hiddenBit

/-- The 52 bits of the fraction. -/
def fraction (x : Binary64) : Nat := x.magnitude % hiddenBit

/-- The number with this sign and these other bits. -/
def ofMagnitude (negative : Bool) (magnitude : Nat) : Binary64 :=
  ⟨UInt64.ofNat ((if negative then signBit else 0) + magnitude)⟩

/-- The magnitude of the infinities: all ones in the exponent, zeros in the fraction. -/
def infiniteMagnitude : Nat := 0x7FF * hiddenBit

/-- **`x.view`** — the value that the bits stand for. A zero exponent field marks the subnormal
numbers, which have no hidden bit. -/
def view (x : Binary64) : View :=
  if x.exponentField = 0x7FF then
    if x.fraction = 0 then .infinite x.negative else .nan
  else if x.exponentField = 0 then .finite x.negative x.fraction (-1074)
  else .finite x.negative (hiddenBit + x.fraction) ((x.exponentField : Int) - 1075)

/-- The quiet NaN with no payload. -/
def nan : Binary64 := ⟨0x7FF8000000000000⟩

/-- One of the two zeros. -/
def zero (negative : Bool) : Binary64 := ofMagnitude negative 0

/-- Is the number a NaN. -/
def isNaN (x : Binary64) : Bool := infiniteMagnitude < x.magnitude

/-- Is the number neither a NaN nor an infinity. -/
def isFinite (x : Binary64) : Bool := x.magnitude < infiniteMagnitude

/-- **`same x y`** — equality of the format: false for a NaN, true for two zeros of any sign. -/
def same (x y : Binary64) : Bool :=
  !x.isNaN && !y.isNaN && (x.bits == y.bits || (x.magnitude == 0 && y.magnitude == 0))

/-- The number without its sign. -/
def abs (x : Binary64) : Binary64 := ofMagnitude false x.magnitude

/-- **`round x`** — the nearest integer, a half away from zero; the sign stays, also of a zero. -/
def round (x : Binary64) : Binary64 :=
  if 1075 ≤ x.exponentField then x
  else if x.exponentField < 1022 then zero x.negative
  else if x.exponentField = 1022 then ofMagnitude x.negative (1023 * hiddenBit)
  else
    let unit := 1 <<< (1075 - x.exponentField)
    let raised := x.magnitude + unit / 2
    ofMagnitude x.negative (raised - raised % unit)

/-! ## Rounding an exact quotient -/

/-- The quotient to the nearest integer, a tie to the even one. -/
def divNearestEven (a d : Nat) : Nat :=
  let q := a / d
  let twice := 2 * (a % d)
  if twice < d then q else if d < twice then q + 1 else q + q % 2

/-- The exponent `p` with `2^(p+52) ≤ a/d < 2^(p+53)`, but at least `-1074`. -/
def unitExponent (a d : Nat) : Int :=
  let guess : Int := (a.log2 : Int) - (d.log2 : Int) - 53
  let top (p : Int) : Bool := a <<< (-(p + 53)).toNat < d <<< (p + 53).toNat
  max (if top guess then guess else guess + 1) (-1074)

/-- **`ofRatio negative a d`** — the number nearest to `± a / d` for a positive `d`, a tie to the
even significand; an infinity from half a unit above the largest number on. -/
def ofRatio (negative : Bool) (a d : Nat) : Binary64 :=
  if a = 0 then zero negative
  else
    let p := unitExponent a d
    let m := divNearestEven (a <<< (-p).toNat) (d <<< p.toNat)
    -- A significand of 2^53 carries into the exponent by itself.
    let field := if m < hiddenBit then m else (p + 1074).toNat * hiddenBit + m
    ofMagnitude negative (min field infiniteMagnitude)

/-- The number nearest to a natural number. -/
def ofNat (n : Nat) : Binary64 := ofRatio false n 1

/-- The number nearest to an integer. -/
def ofInt (i : Int) : Binary64 := ofRatio (i < 0) i.natAbs 1

/-- A finite magnitude as a quotient; the special values count as zero. -/
def toRatio (x : Binary64) : Nat × Nat :=
  match x.view with
  | .finite _ m q => (m <<< q.toNat, 1 <<< (-q).toNat)
  | _ => (0, 1)

/-- The rounded product of two finite magnitudes. -/
def mulMagnitudes (x y : Binary64) : Binary64 :=
  let (a, b) := x.toRatio
  let (c, d) := y.toRatio
  ofRatio false (a * c) (b * d)

/-- The rounded quotient of two finite magnitudes; the divisor is not zero. -/
def divMagnitudes (x y : Binary64) : Binary64 :=
  let (a, b) := x.toRatio
  let (c, d) := y.toRatio
  ofRatio false (a * d) (b * c)

end Binary64

end CapabilityGate
