import CapabilityGate.Json.Basic

/-!
# Numbers in JSON documents

A numeral is what the grammar lets a number look like. Its value is an integer if it is written
without point and exponent and fits 64 bits, with or without a sign. Otherwise the digits are
gathered in a 64-bit significand as long as they fit, later ones only count as places, and the
significand is scaled by one rounded power of ten at a time. A number beyond the largest
floating-point number has no value.
-/
namespace CapabilityGate.Json

/-- A number as it is written. -/
structure Numeral where
  negative : Bool
  whole : List Char
  /-- The digits after the point, if there is one. -/
  fraction : Option (List Char)
  /-- The sign of the exponent (true for minus) and its digits, if there is one. -/
  exponent : Option (Bool × List Char)
deriving DecidableEq, Repr

namespace Numeral

/-- Appends digits to a significand as long as it stays below 2^64; the second component counts
the digits that were taken, the third holds the rest. -/
def gather (significand taken : Nat) : List Char → Nat × Nat × List Char
  | [] => (significand, taken, [])
  | c :: cs =>
    let next := 10 * significand + Decimal.digitValue c
    if UInt64.size ≤ next then (significand, taken, c :: cs) else gather next (taken + 1) cs

/-- `x` times the rounded power `10^k`. -/
def scaleUp (x : Binary64) (k : Nat) : Option Binary64 :=
  let y := x.mulMagnitudes (.ofNat (Decimal.tenTo k))
  if y.isFinite then some y else none

/-- `x` divided by the rounded power `10^k`, in steps of `10^308`. -/
def scaleDown (x : Binary64) (k : Nat) : Binary64 :=
  if k ≤ 308 then x.divMagnitudes (.ofNat (Decimal.tenTo k))
  else
    let y := x.divMagnitudes (.ofNat (Decimal.tenTo 308))
    if y.magnitude = 0 then y else scaleDown y (k - 308)
termination_by k

/-- The magnitude `significand · 10^exponent`, if it is not too large. -/
def scale (significand : Nat) (exponent : Int) : Option Binary64 :=
  let x := Binary64.ofNat significand
  if 0 ≤ exponent then
    if exponent ≤ 308 then scaleUp x exponent.toNat
    else if significand = 0 then some x
    else none
  else if significand = 0 then some x
  else some (scaleDown x (-exponent).toNat)

/-- The largest exponent that is counted. -/
def exponentLimit : Nat := 0x7FFFFFFF

/-- Keeps an exponent within 32 bits. -/
def clampExponent (e : Int) : Int := max (-(exponentLimit : Int) - 1) (min e exponentLimit)

/-- The magnitude of `significand · 10^places` with the written exponent applied. -/
def applyExponent (significand : Nat) (places : Int) : Option (Bool × List Char) → Option Binary64
  | none => scale significand places
  | some (negative, ds) =>
    let e := Decimal.value ds
    if exponentLimit < e then
      if significand ≠ 0 ∧ negative = false then none else some (.zero false)
    else scale significand (clampExponent (if negative then places - e else places + e))

/-- The magnitude of a numeral. -/
def magnitude (n : Numeral) : Option Binary64 :=
  let (significand, _, dropped) := gather 0 0 n.whole
  let places : Int := dropped.length
  match n.fraction with
  | none => applyExponent significand places n.exponent
  | some ds =>
    let (significand, taken, _) := gather significand 0 ds
    applyExponent significand (places - taken) n.exponent

/-- **`n.value`** — what a numeral stands for. Minus zero is a floating-point number. -/
def value (n : Numeral) : Json :=
  let natural := Decimal.value n.whole
  if n.fraction = none ∧ n.exponent = none ∧ natural < UInt64.size ∧
      (n.negative = false ∨ (1 ≤ natural ∧ natural ≤ Int64.minValue.toInt.natAbs)) then
    .int (if n.negative then -natural else natural)
  else
    match n.magnitude with
    | none => .unreadable
    | some x => .float (.ofMagnitude n.negative x.magnitude)

end Numeral

end CapabilityGate.Json
