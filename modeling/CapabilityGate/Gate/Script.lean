import CapabilityGate.Context.Basic
import CapabilityGate.Gate.Register
import CapabilityGate.Sandbox.Config
import CapabilityGate.Sandbox.Outcome
import CapabilityGate.Sandbox.Signal

/-!
# Scripts

A script is what a body or a code unit does, seen from the gate: a tree of requests, each followed
by what happens next for every answer. Scripts give the requests no meaning; the evaluator answers
them. A script is finite along every branch, and everything that it computes by itself between two
requests is an ordinary function, so every deterministic body that acts through the gate is one.
-/
namespace CapabilityGate

/-- A value, or the reason why there is none. -/
abbrev Result := Except Fault Value

/-- A tree of requests. -/
inductive Script where
  /-- Ends with a value or a fault. -/
  | finish (result : Result)
  /-- Ends with a panic, whose payload need not be a text. -/
  | panic (message : Option String)
  /-- Calls a value through the gate. -/
  | call (callee : Value) (args : List Value) (next : Result → Script)
  /-- Asks the gate for the token that covers a resource. -/
  | require (capability : Capability) (resource operation : String)
      (next : Except Fault Token → Script)
  /-- Looks up a shared context by its name. -/
  | find (name : String) (next : Option ContextId → Script)
  /-- Runs `body` with another context active. -/
  | within (context : ContextId) (body : Script) (next : Result → Script)
  /-- Looks at the active context and the parents behind it. -/
  | current (next : Option Lineage → Script)
  /-- Throws a switch of the host. -/
  | revoke (revocation : Revocation) (next : Script)
  /-- Cancels the budget of the host. -/
  | cancel (next : Script)
  /-- Hands a result to the host. -/
  | report (result : Result) (next : Script)
  /-- Lets time pass. -/
  | sleep (time : Duration) (next : Script)
  /-- Runs `unit` in a sandbox. -/
  | launch (context : ContextId) (config : Config) (unit : Script) (next : Outcome → Script)
  /-- Raises a signal in the process. -/
  | raise (signal : Int) (next : Script)
  /-- Ends the process at once, with a status. -/
  | exit (status : Nat)
  /-- Asks the process for memory; the process ends if its limit does not allow it. -/
  | allocate (bytes : Nat) (next : Script)

/-- What a registered body does for a receiver and arguments; the receiver of a function is unit. -/
abbrev Body := Value → List Value → Script

/-- How the evaluation of a script ends, unless its process ends first. -/
inductive Ending where
  | returned (result : Result)
  | panicked (message : Option String)
deriving Repr

end CapabilityGate
