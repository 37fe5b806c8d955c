import CapabilityGate.Capability.Name

/-!
# Faults

Why a call or a code unit did not give a value. The enforcement layer makes the three denials
(`isDenial`): no path to the symbol, a capability not held, a resource outside a grant. The other
causes are a callee of the wrong type, an exhausted limit, and whatever a body reports itself.
`Fault.message` is the one place for the words.
-/
namespace CapabilityGate

/-- The two limits of a run. -/
inductive Limit where
  | timeout
  | memory
deriving DecidableEq, Repr

namespace Limit

/-- All limits. -/
def all : List Limit := [timeout, memory]

/-- The word for a limit. -/
def name : Limit → String
  | timeout => "timeout"
  | memory => "memory"

end Limit

/-- Why there is no value. -/
inductive Fault where
  /-- A value of the wrong type was called or passed. -/
  | type (message : String)
  /-- No rule admits the symbol; `sources` says what could have been called. -/
  | security (symbol origin : String) (sources : List String)
  /-- The symbol needs capabilities that the active context does not hold. -/
  | capability (symbol : String) (missing held : List Capability)
  /-- The nearest grant of the capability does not cover the resource. -/
  | resourceDenied (capability : Capability) (resource : String)
  /-- A limit of the run is used up. -/
  | exhausted (limit : Limit)
  /-- A body gave up on its own. -/
  | failed (message : String)
deriving DecidableEq, Repr

namespace Fault

/-- The explanation of a fault. -/
def message : Fault → String
  | type m => s!"type error: {m}"
  | security symbol origin sources =>
    s!"security error: call to '{symbol}' (from {origin}) is not allowed; allowed call sources: "
      ++ Text.joinStrings ", " sources
  | capability symbol missing held =>
    s!"capability error: '{symbol}' requires [" ++ joinNames missing ++ "]; held: [" ++
      joinNames held ++ "]"
  | resourceDenied c resource =>
    s!"resource denied: '{resource}' is outside the '{c.name}' grant"
  | exhausted limit => s!"resource limit exceeded: {limit.name}"
  | failed m => m

/-- Was the fault made by the enforcement layer. -/
def isDenial : Fault → Bool
  | security _ _ _ => true
  | capability _ _ _ => true
  | resourceDenied _ _ => true
  | _ => false

end Fault

end CapabilityGate
