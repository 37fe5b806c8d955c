import CapabilityGate.Gate.Catalog
import CapabilityGate.Value.Primitive

/-!
# The route of a call

What a catalog says about a callee, before anything is asked of the active context. The rules are
tried in order, for functions: registered at all; with a requirement; of the program. For methods:
with a requirement; of a program class; listed for a primitive kind; of a trusted class.
-/
namespace CapabilityGate

/-- What a catalog says about a callee. -/
inductive Route (β : Type) where
  /-- The callee is no function and no method. -/
  | notCallable
  /-- The body may be entered by a caller that holds what is required. -/
  | gated (symbol : String) (requirement : Requirement) (receiver : Value) (body : β)
  /-- The body may be entered by every caller. -/
  | free (receiver : Value) (body : β)
  /-- The method is one of the listed ones of its kind. -/
  | primitive (method : Primitive) (receiver : Value)
  /-- No rule admits the call. -/
  | denied (symbol origin : String)

namespace Catalog

variable {β : Type}

/-- The route of a call of a function. -/
def routeFunction (c : Catalog β) (symbol : String) : Route β :=
  match c.function? symbol with
  | none => .denied symbol "unregistered symbol"
  | some f =>
    match f.requirement with
    | some requirement => .gated symbol requirement .unit f.body
    | none => if f.origin.isProgram then .free .unit f.body else .denied symbol f.origin.display

/-- The class of an object, if it is registered. -/
def classOf? (c : Catalog β) : Value → Option (ClassEntry β)
  | .object name _ => c.class? name
  | _ => none

/-- The origin that a denial of a method names. -/
def methodOrigin (c : Catalog β) (receiver : Value) : String :=
  match c.classOf? receiver, receiver with
  | some k, _ => k.origin.display
  | none, .object _ _ => "unregistered class"
  | none, v => s!"builtin type '{v.kind.name}'"

/-- The listed method of a primitive kind. -/
def primitiveOf? (receiver : Value) (name : String) : Option Primitive :=
  if receiver.kind.isSafePrimitive then Primitive.lookup? receiver.kind name else none

/-- The route of a registered method that has no requirement. -/
def routeUnmarked (c : Catalog β) (receiver : Value) (name symbol : String) (k : ClassEntry β)
    (m : MethodEntry β) : Route β :=
  if k.origin.isProgram then .free receiver m.body
  else
    match primitiveOf? receiver name with
    | some p => .primitive p receiver
    | none =>
      if k.trusted then .free receiver m.body
      else .denied symbol (c.methodOrigin receiver)

/-- The route of a call of a method. -/
def routeMethod (c : Catalog β) (receiver : Value) (name : String) : Route β :=
  let symbol := s!"{receiver.typeName}.{name}"
  match c.classOf? receiver with
  | some k =>
    match k.method? name with
    | some m =>
      match m.requirement with
      | some requirement => .gated symbol requirement receiver m.body
      | none => c.routeUnmarked receiver name symbol k m
    | none => .denied symbol (c.methodOrigin receiver)
  | none =>
    match primitiveOf? receiver name with
    | some p => .primitive p receiver
    | none => .denied symbol (c.methodOrigin receiver)

/-- **`c.route callee`** — what the catalog says about a callee. -/
def route (c : Catalog β) : Value → Route β
  | .function symbol => c.routeFunction symbol
  | .method receiver name => c.routeMethod receiver name
  | _ => .notCallable

/-- What could have been called instead, for explanations of denials. -/
def callSources (c : Catalog β) : List String :=
  ["registered library functions",
   s!"functions defined in program module '{c.program}'",
   "vetted methods of primitive types (" ++
     Text.joinStrings ", " (Kind.safePrimitives.map Kind.name) ++ ")",
   "methods of trusted classes"]

end Catalog

end CapabilityGate
