import CapabilityGate.Text.Blank
import CapabilityGate.Text.Search

/-!
# Capabilities

A capability is a class of permission such as `file.read`, known by its name. Any string can name
one; `Capability.parse` is the gate for names that come from outside and accepts `*` and dotted
lower case names only. The name `*` is the universal capability.
-/
namespace CapabilityGate

/-- A class of permission, by its name. -/
structure Capability where
  name : String
deriving DecidableEq, Repr

namespace Capability

/-- The capability that stands for every other one. -/
def universal : Capability := ⟨"*"⟩

/-- Is this the capability that stands for every other one. -/
def isUniversal (c : Capability) : Bool := c.name == "*"

/-- A name from outside that is neither `*` nor dotted lower case. -/
structure NameError where
  /-- The name without surrounding blanks. -/
  name : String
deriving DecidableEq, Repr

/-- The explanation shown for a bad name. -/
def NameError.message (e : NameError) : String :=
  s!"capability name '{e.name}' must be dotted lowercase segments (e.g. file.read)"

/-- A character of a segment: a small letter, a digit or an underscore. -/
def isNameChar (c : Char) : Bool :=
  ('a' ≤ c && c ≤ 'z') || ('0' ≤ c && c ≤ '9') || c == '_'

/-- A segment has one to 64 characters. -/
def isSegment (cs : List Char) : Bool :=
  1 ≤ cs.length && cs.length ≤ 64 && cs.all isNameChar

/-- A dotted name has one to eight segments. -/
def isDotted (cs : List Char) : Bool :=
  let segments := Text.fields '.' cs
  segments.length ≤ 8 && segments.all isSegment

/-- **`parse s`** — the capability that `s` names, surrounding blanks aside. -/
def parse (s : String) : Except NameError Capability :=
  let name := Text.trim s
  if name = "*" ∨ isDotted name.toList = true then .ok ⟨name⟩ else .error ⟨name⟩

end Capability

/-- Adds a capability at its place in a list in strict order of names. -/
def insertName (c : Capability) : List Capability → List Capability
  | [] => [c]
  | d :: ds =>
    if c.name < d.name then c :: d :: ds
    else if c = d then d :: ds
    else d :: insertName c ds

/-- The capabilities of a list in strict order of their names, each once. -/
def sortNames (cs : List Capability) : List Capability := cs.foldr insertName []

/-- Writes the names of capabilities with commas between them. -/
def joinNames (cs : List Capability) : String := Text.joinStrings ", " (cs.map Capability.name)

end CapabilityGate
