import CapabilityGate.Context.Basic

/-!
# The active context of a thread

Each thread has one register for the context that is active on it. Activating a context returns a
guard; dropping the guard puts back what the register held when that guard was made, also when
guards are dropped out of order. An activation may answer to a revocation, a switch that any thread
can throw; one without its own inherits the switch of the activation below it. A context whose
switch has been thrown is no longer visible.
-/
namespace CapabilityGate

/-- A switch that withdraws activations. -/
inductive Revocation where
  /-- A switch made by the host, by its name. -/
  | named (name : String)
  /-- The switch of a run on a thread, by the number of the run. -/
  | ofRun (run : Nat)
deriving DecidableEq, Repr

/-- A context that is active, and the switch it answers to. -/
structure Activation where
  context : ContextId
  revocation : Option Revocation
deriving DecidableEq, Repr

/-- What is active on a thread. -/
abbrev Register := Option Activation

namespace Register

/-- The switch that the active context answers to. -/
def revocation (r : Register) : Option Revocation := r.bind Activation.revocation

/-- The register after a context is activated over it. -/
def activate (r : Register) (context : ContextId) (revocation : Option Revocation) : Register :=
  some ⟨context, revocation.or r.revocation⟩

/-- **`r.visible isRevoked`** — the active context, unless its switch has been thrown. -/
def visible (r : Register) (isRevoked : Revocation → Bool) : Option ContextId :=
  match r with
  | none => none
  | some a => if a.revocation.any isRevoked then none else some a.context

end Register

/-! ## Guards that are kept -/

/-- A guard by its number, with what it will put back. -/
structure Guard where
  number : Nat
  previous : Register
deriving DecidableEq, Repr

/-- A register together with the guards that have not been dropped, newest first. -/
structure Guarded where
  register : Register
  guards : List Guard
  /-- The number of the next guard; numbers are never used twice. -/
  next : Nat
deriving DecidableEq, Repr

namespace Guarded

/-- Nothing is active and there are no guards. -/
def empty : Guarded := ⟨none, [], 0⟩

/-- Activates a context and keeps the guard. -/
def activate (g : Guarded) (context : ContextId) (revocation : Option Revocation) : Guarded :=
  ⟨g.register.activate context revocation, ⟨g.next, g.register⟩ :: g.guards, g.next + 1⟩

/-- The guard with this number, while it is kept. -/
def guard? (g : Guarded) (number : Nat) : Option Guard := g.guards.find? (·.number = number)

/-- Drops a guard. -/
def drop (g : Guarded) (guard : Guard) : Guarded :=
  { g with register := guard.previous, guards := g.guards.erase guard }

end Guarded

end CapabilityGate
