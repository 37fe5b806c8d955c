import CapabilityGate.Fault
import CapabilityGate.Sandbox.Duration
import CapabilityGate.Value.Basic

/-!
# Outcomes

How a run ended, as its caller sees it: a value, or a failure with its kind and an explanation. A
failure that comes from a fault of the unit keeps the fault as its source; the kind and the
explanation are then those of the fault.
-/
namespace CapabilityGate

/-- The class of a failure. -/
inductive FailureKind where
  | type
  | security
  | capability
  | resourceDenied
  | timeout
  | memory
  | panic
  | failed
  | internal
deriving DecidableEq, Repr

namespace FailureKind

/-- All kinds of failures. -/
def all : List FailureKind :=
  [type, security, capability, resourceDenied, timeout, memory, panic, failed, internal]

/-- The word for a kind of failure. -/
def name : FailureKind → String
  | type => "type"
  | security => "security"
  | capability => "capability"
  | resourceDenied => "resource_denied"
  | timeout => "timeout"
  | memory => "memory"
  | panic => "panic"
  | failed => "failed"
  | internal => "internal"

/-- The kind of failure that a fault is. -/
def ofFault : Fault → FailureKind
  | .type _ => type
  | .security _ _ _ => security
  | .capability _ _ _ => capability
  | .resourceDenied _ _ => resourceDenied
  | .exhausted .timeout => timeout
  | .exhausted .memory => memory
  | .failed _ => failed

end FailureKind

/-- Why a run gave no value. -/
structure Failure where
  kind : FailureKind
  message : String
  /-- The fault that the unit ended with, if that is how it ended. -/
  source : Option Fault
deriving DecidableEq, Repr

/-- The failure of a unit that ended with a fault. -/
def Failure.ofFault (f : Fault) : Failure := ⟨.ofFault f, f.message, some f⟩

/-- The one-line text of a failure. -/
def Failure.display (f : Failure) : String := f.kind.name ++ ": " ++ f.message

/-- How a run ended, in the form in which it is reported. -/
structure Outcome where
  success : Bool
  value : Option Value
  failure : Option Failure
  elapsed : Duration
deriving Repr

namespace Outcome

/-- The outcome of a unit that ended with a value or a fault. -/
def ofResult (r : Except Fault Value) (elapsed : Duration) : Outcome :=
  match r with
  | .ok v => ⟨true, some v, none, elapsed⟩
  | .error f => ⟨false, none, some (.ofFault f), elapsed⟩

/-- The outcome of a run that failed for a reason outside its unit. -/
def failed (kind : FailureKind) (message : String) (elapsed : Duration) : Outcome :=
  ⟨false, none, some ⟨kind, message, none⟩, elapsed⟩

end Outcome

end CapabilityGate
