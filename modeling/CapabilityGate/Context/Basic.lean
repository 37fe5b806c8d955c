import CapabilityGate.Capability.Token

/-!
# Contexts

A context holds at most one token per capability and may name a parent. What it grants is asked of
its *lineage*, the list of contexts from itself through its parents, nearest first: the first level
that holds a token for the capability, or else the universal one, decides, whatever lies further
up. `Store` keeps the shared contexts by number. A parent is older than its child, so a lineage is
finite; it ends at the first parent that nobody holds any more, because a context does not keep its
parent alive.
-/
namespace CapabilityGate

/-- The number of a shared context; a younger context has a larger one. -/
abbrev ContextId := Nat

/-- A named set of tokens, one per capability. -/
structure Context where
  name : String
  tokens : List Token
  parent : Option ContextId
  distinct : (tokens.map Token.capability).Nodup

namespace Context

/-- A context without tokens. -/
def empty (name : String) (parent : Option ContextId) : Context :=
  { name, tokens := [], parent, distinct := List.nodup_nil }

/-- The tokens of a list for other capabilities than `c`. -/
def others (c : Capability) (ts : List Token) : List Token := ts.filter (·.capability ≠ c)

theorem not_mem_others (c : Capability) (ts : List Token) :
    c ∉ (others c ts).map Token.capability := by
  simp [others]

theorem nodup_others (c : Capability) {ts : List Token} (h : (ts.map Token.capability).Nodup) :
    ((others c ts).map Token.capability).Nodup :=
  h.sublist (List.filter_sublist.map _)

/-- Adds a token, in place of the one for the same capability if there is one. -/
def add (x : Context) (t : Token) : Context :=
  { x with
    tokens := t :: others t.capability x.tokens
    distinct := List.nodup_cons.2 ⟨not_mem_others _ _, nodup_others _ x.distinct⟩ }

/-- The token for exactly this capability. -/
def tokenFor? (x : Context) (c : Capability) : Option Token :=
  x.tokens.find? (·.capability = c)

/-- The token that this level has for a capability: the exact one, else the universal one. -/
def token? (x : Context) (c : Capability) : Option Token :=
  (x.tokenFor? c).or (x.tokenFor? Capability.universal)

/-- The number of tokens. -/
def size (x : Context) : Nat := x.tokens.length

end Context

/-! ## Questions to a lineage -/

/-- A context and the parents behind it, nearest first. -/
abbrev Lineage := List Context

namespace Lineage

/-- The levels that a question looks at: all of them, or only the first. -/
def scope (l : Lineage) (ancestors : Bool) : Lineage := if ancestors then l else l.take 1

/-- **`l.token? c`** — the token of the first level that has one for `c`. -/
def token? (l : Lineage) (c : Capability) (ancestors : Bool) : Option Token :=
  (l.scope ancestors).findSome? (·.token? c)

/-- **`l.holds c resource`** — is there a token for `c`, good for the resource if one is given. -/
def holds (l : Lineage) (c : Capability) (resource : Option String) (ancestors : Bool) :
    Bool :=
  match l.token? c ancestors, resource with
  | none, _ => false
  | some _, none => true
  | some t, some r => t.covers (some r)

/-- **`l.types`** — the capabilities that some level has a token for, in the order of names. -/
def types (l : Lineage) (ancestors : Bool) : List Capability :=
  sortNames ((l.scope ancestors).flatMap fun x => x.tokens.map Token.capability)

end Lineage

/-! ## Shared contexts -/

/-- The shared contexts, oldest first, and one entry in `references` per holder. -/
structure Store where
  contexts : List Context
  references : List ContextId

namespace Store

/-- No contexts. -/
def empty : Store := ⟨[], []⟩

/-- The context with this number. -/
def find? (s : Store) (id : ContextId) : Option Context := s.contexts[id]?

/-- Does anybody hold the context. -/
def isAlive (s : Store) (id : ContextId) : Bool := s.references.contains id

/-- How many hold the context. -/
def holders (s : Store) (id : ContextId) : Nat := s.references.count id

/-- Adds a context, held by the caller; its number is the number of contexts before it. -/
def share (s : Store) (x : Context) : Store :=
  ⟨s.contexts ++ [x], s.contexts.length :: s.references⟩

/-- Adds a holder. -/
def hold (s : Store) (id : ContextId) : Store := { s with references := id :: s.references }

/-- Takes one holder away. -/
def release (s : Store) (id : ContextId) : Store :=
  { s with references := s.references.erase id }

/-- The parent that can still be reached: alive, and older than `bound`. -/
def reachable? (s : Store) (bound : ContextId) (parent : Option ContextId) : Option (Fin bound) :=
  match parent with
  | none => none
  | some p => if h : p < bound then (if s.isAlive p then some ⟨p, h⟩ else none) else none

/-- The contexts from number `id` on through the parents that can be reached. -/
def lineageOf (s : Store) (id : ContextId) : Lineage :=
  match s.find? id with
  | none => []
  | some x =>
    x :: match s.reachable? id x.parent with
      | none => []
      | some p => s.lineageOf p.val
termination_by id
decreasing_by exact p.isLt

/-- The lineage of a context that is not shared itself. -/
def lineage (s : Store) (x : Context) : Lineage :=
  x :: match s.reachable? s.contexts.length x.parent with
    | none => []
    | some p => s.lineageOf p.val

/-- The parent of a context, while it is alive. -/
def parent? (s : Store) (x : Context) : Option Context :=
  (s.reachable? s.contexts.length x.parent).bind fun p => s.find? p.val

end Store

end CapabilityGate
