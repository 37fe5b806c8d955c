import CapabilityGate.Decimal.Digits

/-!
# Lengths of time

A length of time is a whole number of nanoseconds. Its text uses the largest unit of s, ms, µs and
ns that gives at least one, with as many decimal places as are needed.

A length that is measured can be any. One that is asked for is a `Timeout`: it has to be added to the
clock, so it is bounded.
-/
namespace CapabilityGate

/-- A length of time in nanoseconds. -/
structure Duration where
  nanos : Nat
deriving DecidableEq, Repr

namespace Duration

/-- No time at all. -/
def zero : Duration := ⟨0⟩

/-- The longest time that can be asked for: 2^62 seconds. A host counts seconds below 2^63, and this
leaves one half of them to its clock. -/
def longest : Duration := ⟨UInt64.size / 4 * 1000000000⟩

end Duration

/-- A length of time that can be asked for. -/
structure Timeout extends Duration where
  within : nanos ≤ Duration.longest.nanos
deriving DecidableEq, Repr

namespace Timeout

instance : Coe Timeout Duration := ⟨toDuration⟩

/-- No time at all. -/
def zero : Timeout := ⟨.zero, Nat.zero_le _⟩

/-- So many nanoseconds, if that can be asked for, and else the longest time. -/
def ofNanos (n : Nat) : Timeout := ⟨⟨min n Duration.longest.nanos⟩, Nat.min_le_right _ _⟩

theorem nanos_ofNanos {n : Nat} (within : n ≤ Duration.longest.nanos) : (ofNanos n).nanos = n :=
  Nat.min_eq_left within

/-- No time is not the same as too much. -/
theorem ofNanos_eq_zero_iff {n : Nat} : ofNanos n = zero ↔ n = 0 := by
  constructor
  · intro same
    have least : min n Duration.longest.nanos = 0 := congrArg (fun t : Timeout => t.nanos) same
    exact (Nat.min_eq_zero_iff.mp least).resolve_right (by decide)
  · rintro rfl
    rfl

end Timeout

namespace Duration

/-- Whole microseconds. -/
def ofMicros (n : Nat) : Timeout := .ofNanos (n * 1000)

/-- Whole milliseconds. -/
def ofMillis (n : Nat) : Timeout := .ofNanos (n * 1000000)

/-- Whole seconds. -/
def ofSeconds (n : Nat) : Timeout := .ofNanos (n * 1000000000)

/-- A number of 64 bits is never too many milliseconds. -/
theorem nanos_ofMillis {n : Nat} (fits : n < UInt64.size) : (ofMillis n).nanos = n * 1000000 := by
  apply Timeout.nanos_ofNanos
  have size : UInt64.size = 18446744073709551616 := rfl
  show n * 1000000 ≤ UInt64.size / 4 * 1000000000
  omega

/-- The whole milliseconds in a length of time. -/
def millis (d : Duration) : Nat := d.nanos / 1000000

/-- The digits of `rest`, filled up with zeros in front to `places`, without zeros at the end. -/
def fraction (places rest : Nat) : List Char :=
  let ds := Decimal.digits rest
  let padded := List.replicate (places - ds.length) '0' ++ ds
  (padded.reverse.dropWhile (· = '0')).reverse

/-- The length `nanos` in a unit of `10^places` nanoseconds. -/
def inUnit (nanos places : Nat) (unit : String) : String :=
  let whole := Decimal.natText (nanos / Decimal.tenTo places)
  let rest := nanos % Decimal.tenTo places
  if rest = 0 then whole ++ unit
  else whole ++ "." ++ String.ofList (fraction places rest) ++ unit

/-- **`d.display`** — the length in the largest unit that gives at least one. -/
def display (d : Duration) : String :=
  if Decimal.tenTo 9 ≤ d.nanos then inUnit d.nanos 9 "s"
  else if Decimal.tenTo 6 ≤ d.nanos then inUnit d.nanos 6 "ms"
  else if Decimal.tenTo 3 ≤ d.nanos then inUnit d.nanos 3 "µs"
  else inUnit d.nanos 0 "ns"

end Duration

end CapabilityGate
