import CapabilityGate.Capability.Name
import CapabilityGate.Capability.Pattern

/-!
# Tokens

A token grants one capability. A `Scope` restricts the resources it is good for to those that one
of its patterns matches; an empty scope restricts nothing, and neither does a missing one. Asked
without a resource, a token answers for all resources at once, so only an unrestricted one says
yes.
-/
namespace CapabilityGate

/-- Keeps the first of each group of equal elements. -/
def distinct {α : Type} [DecidableEq α] : List α → List α
  | [] => []
  | a :: as => a :: (distinct as).filter (· ≠ a)

/-- Patterns of which one has to match; none at all restricts nothing. -/
structure Scope where
  patterns : List Pattern
deriving DecidableEq, Repr

namespace Scope

/-- The scope of a list of patterns, repetitions left out. -/
def ofPatterns (ps : List Pattern) : Scope := ⟨distinct ps⟩

/-- The scope of a list of pattern texts, refused at the first bad one. -/
def parse [Engine] (texts : List String) : Except Pattern.Error Scope :=
  (texts.mapM Pattern.parse).map ofPatterns

/-- Does the scope restrict nothing. -/
def isUnrestricted (s : Scope) : Bool := s.patterns.isEmpty

/-- **`s.admits resource`** — is the resource within the scope. -/
def admits (s : Scope) (resource : String) : Bool :=
  s.isUnrestricted || s.patterns.any (·.matches resource)

end Scope

/-- A grant of one capability, for some or all resources. -/
structure Token where
  capability : Capability
  scope : Option Scope
deriving DecidableEq, Repr

namespace Token

/-- The grant of a capability for all resources. -/
def unrestricted (c : Capability) : Token := ⟨c, none⟩

/-- The grant of every capability for all resources. -/
def universal : Token := unrestricted Capability.universal

/-- The grant of a capability for the resources that one of the patterns matches. -/
def restricted [Engine] (c : Capability) (patterns : List String) : Except Pattern.Error Token :=
  (Scope.parse patterns).map fun s => ⟨c, some s⟩

/-- Is the token good for all resources. -/
def isUnrestricted (t : Token) : Bool :=
  match t.scope with
  | none => true
  | some s => s.isUnrestricted

/-- **`t.covers resource`** — is the token good for the resource; without one, for all. -/
def covers (t : Token) : Option String → Bool
  | none => t.isUnrestricted
  | some resource =>
    match t.scope with
    | none => true
    | some s => s.admits resource

end Token

end CapabilityGate
