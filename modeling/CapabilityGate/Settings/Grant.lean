import CapabilityGate.Context.Basic

/-!
# Grants

A grant is a capability that the issuer hands out, with the patterns it is restricted to if there is
a list of them. `Grant.parse` reads the short form `capability` or `capability=pattern,pattern`,
and refuses an equals sign without patterns, which would come to mean no restriction.
-/
namespace CapabilityGate

/-- A capability to hand out. -/
structure Grant where
  capability : Capability
  /-- No list at all means no restriction. -/
  patterns : Option (List String)
deriving DecidableEq, Repr

namespace Grant

/-- Why the short form of a grant is refused. -/
inductive Error where
  /-- An equals sign without patterns after it. -/
  | noPatterns (text : String)
  | name (e : Capability.NameError)
  | pattern (e : Pattern.Error)
deriving DecidableEq, Repr

/-- The explanation shown for a refused grant. -/
def Error.message : Error → String
  | noPatterns text =>
    s!"grant '{text}' has an empty pattern list; drop the '=' for an unconstrained grant"
  | name e => e.message
  | pattern e => e.message

/-- The token of a grant. -/
def token [Engine] (g : Grant) : Except Pattern.Error Token :=
  match g.patterns with
  | none => .ok (Token.unrestricted g.capability)
  | some ps => Token.restricted g.capability ps

/-- The texts between commas, without blanks around them; empty ones are left out. -/
def splitPatterns (cs : List Char) : List String :=
  ((Text.fields ',' cs).map Text.trimChars |>.filter (!·.isEmpty)).map String.ofList

/-- The name and the list of patterns of the short form, which ends the name at the first `=`. -/
def splitShort (raw : String) : String × Option (List String) :=
  match Text.splitFirst '=' raw.toList with
  | none => (raw, none)
  | some (name, patterns) => (String.ofList name, some (splitPatterns patterns))

/-- **`parse raw`** — reads the short form of a grant. -/
def parse [Engine] (raw : String) : Except Error Grant :=
  let (name, patterns) := splitShort raw
  if patterns = some [] then .error (.noPatterns raw)
  else
    match Capability.parse name with
    | .error e => .error (.name e)
    | .ok capability =>
      let g : Grant := ⟨capability, patterns⟩
      match g.token with
      | .error e => .error (.pattern e)
      | .ok _ => .ok g

end Grant

end CapabilityGate
