/-!
# Engines for regular expressions

Patterns are compiled to regular expressions, and what compiles those is not part of this library. Of
an engine one thing matters here: which expressions it refuses, and how it explains that. It may
refuse one that it cannot read, or one whose program would be too large.

`Engine.standard` is the engine of the program. How large a program is cannot be seen from outside,
so `Engine.size` is an estimate: it counts the states of an automaton that reads bytes, and the
transitions between them.
-/
namespace CapabilityGate

/-- What compiles regular expressions. -/
class Engine where
  /-- The explanation for an expression that is refused. -/
  refusal? : List Char → Option String

namespace Engine

/-- The bytes that a state takes. -/
def stateSize : Nat := 32

/-- The bytes that a class of characters takes: nine states, and eighteen transitions of eight bytes. -/
def classSize : Nat := 9 * stateSize + 18 * 8

/-- The bytes that an expression takes. A character takes a state for each of its bytes, and anything
else that stands in an expression takes one. -/
def size : List Char → Nat
  | '[' :: '^' :: _ :: ']' :: cs => classSize + size cs
  | '.' :: cs => classSize + size cs
  | '\\' :: c :: cs => c.utf8Size * stateSize + size cs
  | c :: cs => c.utf8Size * stateSize + size cs
  | [] => 0

/-- The bytes that an expression may take: 10 MiB. -/
def limit : Nat := 10485760

/-- The explanation for an expression that takes more. -/
def tooLarge : String := "Compiled regex exceeds size limit of 10485760 bytes."

/-- The engine of the program. -/
instance standard : Engine where
  refusal? e := if limit < size e then some tooLarge else none

end Engine

end CapabilityGate
