import CapabilityGate.Capability.Name

/-!
# Records of denials

A record says which capability was missing, on which resource, for which operation and when.
`payload` is the byte form that goes into the hash chain: the three texts, each followed by a zero
byte, and the time as seconds and nanoseconds since the epoch in little-endian order. A missing
resource is written as an empty one and a time before the epoch as the epoch.
-/
namespace CapabilityGate

/-- A denial. -/
structure Record where
  capability : Capability
  resource : Option String
  operation : String
  /-- Nanoseconds since the epoch, negative before it. -/
  timestamp : Int
deriving DecidableEq, Repr

/-- Nanoseconds in a second. -/
def nanosPerSecond : Nat := 1000000000

/-- The UTF-8 bytes of a text. -/
def textBytes (s : String) : List UInt8 := s.toUTF8.toList

/-- The lowest `count` bytes of a number, the lowest first. -/
def littleEndian : Nat → Nat → List UInt8
  | 0, _ => []
  | count + 1, n => UInt8.ofNat (n % 256) :: littleEndian count (n / 256)

namespace Record

/-- The whole seconds since the epoch, zero before it. -/
def seconds (r : Record) : Nat := r.timestamp.toNat / nanosPerSecond

/-- The nanoseconds after the last whole second, zero before the epoch. -/
def subsecondNanos (r : Record) : Nat := r.timestamp.toNat % nanosPerSecond

/-- **`r.payload`** — the bytes of a record that go into the hash chain. -/
def payload (r : Record) : List UInt8 :=
  textBytes r.capability.name ++ 0 :: (textBytes (r.resource.getD "") ++ 0 ::
    (textBytes r.operation ++ 0 ::
      (littleEndian 8 r.seconds ++ littleEndian 4 r.subsecondNanos)))

end Record

end CapabilityGate
