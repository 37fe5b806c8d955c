import CapabilityGate.Capability.Token
import CapabilityGate.Fault
import CapabilityGate.Sandbox.Config
import CapabilityGate.Sandbox.Outcome
import CapabilityGate.Wire.Shape

/-!
# Faults, words and scopes on the wire

The cases without data are written as their words, capabilities and patterns as texts, sizes as
numbers of bytes. A fault is a tagged document with a record as its data, only an exhausted limit
has a word. A scope is a record with one field; a pattern that cannot be made is refused, and
repeated patterns are kept as they are written.
-/
namespace CapabilityGate

/-- Reads a kind of value by its word. -/
def Kind.ofJson? : Wire.Reader Kind := Wire.case Kind.all Kind.name

/-- Reads a limit by its word. -/
def Limit.ofJson? : Wire.Reader Limit := Wire.case Limit.all Limit.name

/-- Reads a kind of failure by its word. -/
def FailureKind.ofJson? : Wire.Reader FailureKind := Wire.case FailureKind.all FailureKind.name

/-- Reads a kind of isolation by its word. -/
def Isolation.ofJson? : Wire.Reader Isolation := Wire.case Isolation.all Isolation.name

/-- Reads a size by its number of bytes. -/
def ByteSize.ofJson? : Wire.Reader ByteSize := fun levels j =>
  (Wire.natural UInt64.size levels j).map fun n => ⟨UInt64.ofNat n⟩

/-- The wire form of a size. -/
def ByteSize.toJson (s : ByteSize) : Json := .int s.bytes.toNat

/-- Reads a capability by its name; every name is taken. -/
def Capability.ofJson? : Wire.Reader Capability := fun levels j =>
  (Wire.text levels j).map Capability.mk

/-- The wire form of a capability. -/
def Capability.toJson (c : Capability) : Json := .string c.name

/-- Reads a pattern by its text. -/
def Pattern.ofJson? [Engine] : Wire.Reader Pattern := fun levels j =>
  (Wire.text levels j).bind fun s => (Pattern.parse s).toOption

/-- The wire form of a pattern. -/
def Pattern.toJson (p : Pattern) : Json := .string p.text

/-- Reads a scope. -/
def Scope.ofJson? [Engine] : Wire.Reader Scope
  | levels + 1, j =>
    match Wire.fields true ["patterns"] (levels + 1) j with
    | some [ps] => (Wire.required (Wire.items Pattern.ofJson?) levels ps).map Scope.mk
    | _ => none
  | _, _ => none

/-- The wire form of a scope. -/
def Scope.toJson (s : Scope) : Json :=
  .object [("patterns", .array (s.patterns.map Pattern.toJson))]

namespace Fault

/-- The wire form of a fault. -/
def toJson : Fault → Json
  | type m => .object [("Type", .object [("message", .string m)])]
  | security symbol origin sources =>
    .object [("Security", .object
      [("symbol", .string symbol), ("origin", .string origin),
       ("allowed_sources", .array (sources.map Json.string))])]
  | capability symbol missing held =>
    .object [("Capability", .object
      [("symbol", .string symbol), ("missing", .array (missing.map Capability.toJson)),
       ("held", .array (held.map Capability.toJson))])]
  | resourceDenied c resource =>
    .object [("ResourceDenied", .object [("capability", c.toJson), ("resource", .string resource)])]
  | exhausted limit => .object [("ResourceLimit", .string limit.name)]
  | failed m => .object [("Failed", .object [("message", .string m)])]

/-- The one field of the data of a fault that is only a message. -/
def messageOf? : Wire.Reader String
  | levels + 1, j =>
    match Wire.fields true ["message"] (levels + 1) j with
    | some [m] => Wire.required Wire.text levels m
    | _ => none
  | _, _ => none

/-- The data of a fault without a way to the symbol. -/
def securityOf? : Wire.Reader Fault
  | levels + 1, j =>
    match Wire.fields true ["symbol", "origin", "allowed_sources"] (levels + 1) j with
    | some [s, o, a] => do
      let s ← Wire.required Wire.text levels s
      let o ← Wire.required Wire.text levels o
      let a ← Wire.required (Wire.items Wire.text) levels a
      return security s o a
    | _ => none
  | _, _ => none

/-- The data of a fault with missing capabilities. -/
def capabilityOf? : Wire.Reader Fault
  | levels + 1, j =>
    match Wire.fields true ["symbol", "missing", "held"] (levels + 1) j with
    | some [s, m, h] => do
      let s ← Wire.required Wire.text levels s
      let m ← Wire.required (Wire.items Capability.ofJson?) levels m
      let h ← Wire.required (Wire.items Capability.ofJson?) levels h
      return capability s m h
    | _ => none
  | _, _ => none

/-- The data of a fault about a resource. -/
def resourceOf? : Wire.Reader Fault
  | levels + 1, j =>
    match Wire.fields true ["capability", "resource"] (levels + 1) j with
    | some [c, r] => do
      let c ← Wire.required Capability.ofJson? levels c
      let r ← Wire.required Wire.text levels r
      return resourceDenied c r
    | _ => none
  | _, _ => none

/-- **`ofJson? levels j`** — the fault that a document holds. -/
def ofJson? : Wire.Reader Fault := fun levels j => do
  let (name, data) ← Wire.tagged levels j
  let inner := levels - 1
  if name = "Type" then (messageOf? inner data).map type
  else if name = "Security" then securityOf? inner data
  else if name = "Capability" then capabilityOf? inner data
  else if name = "ResourceDenied" then resourceOf? inner data
  else if name = "ResourceLimit" then (Limit.ofJson? inner data).map exhausted
  else if name = "Failed" then (messageOf? inner data).map failed
  else none

end Fault

end CapabilityGate
