import CapabilityGate.Capability.Token
import CapabilityGate.Value.Basic

/-!
# The catalog

The catalog lists every symbol that may be called: functions by their symbols, classes by their
names with their methods. An entry records where it comes from, what it requires, and its body; the
type of bodies is a parameter, because nothing here looks at them. `Catalog.build` registers one
entry after the other and refuses the whole list if a symbol, a class or a method of a class comes
twice.
-/
namespace CapabilityGate

/-- Where a symbol is defined. -/
inductive Origin where
  /-- The trusted module of the program itself. -/
  | program (module : String)
  /-- Any other module. -/
  | module (name : String)
deriving DecidableEq, Repr

namespace Origin

/-- The text for an origin. -/
def display : Origin → String
  | program name => s!"program module '{name}'"
  | module name => s!"module '{name}'"

/-- Is this the module of the program. -/
def isProgram : Origin → Bool
  | program _ => true
  | module _ => false

end Origin

/-- What a caller has to hold, and which argument names the resource in records of denials. -/
structure Requirement where
  capabilities : List Capability
  resourceArg : Option Nat
deriving DecidableEq, Repr

namespace Requirement

/-- The requirement of the given capabilities, repetitions left out. -/
def of (capabilities : List Capability) (resourceArg : Option Nat) : Requirement :=
  ⟨distinct capabilities, resourceArg⟩

/-- The text of the argument that names the resource, if it is there and is a text. -/
def resource (r : Requirement) (args : List Value) : Option String :=
  (r.resourceArg.bind fun i => args[i]?).bind Value.text?

end Requirement

/-- A registered function. -/
structure FunctionEntry (β : Type) where
  symbol : String
  origin : Origin
  requirement : Option Requirement
  body : β

/-- A registered method. -/
structure MethodEntry (β : Type) where
  name : String
  requirement : Option Requirement
  body : β

/-- A registered class. -/
structure ClassEntry (β : Type) where
  name : String
  origin : Origin
  /-- Every method of a trusted class may be called. -/
  trusted : Bool
  methods : List (MethodEntry β)

/-- The method of a class with this name. -/
def ClassEntry.method? {β : Type} (c : ClassEntry β) (name : String) : Option (MethodEntry β) :=
  c.methods.find? (·.name = name)

/-- One registration. -/
inductive Registration (β : Type) where
  /-- A vetted function of a library. -/
  | library (module symbol : String) (requirement : Requirement) (body : β)
  /-- A function of the program. -/
  | program (symbol : String) (body : β)
  /-- A function that is known but was never vetted. -/
  | foreign (module symbol : String) (body : β)
  /-- A class with its methods. -/
  | class (module name : String) (trusted : Bool) (methods : List (MethodEntry β))

/-- All symbols that the gate knows. -/
structure Catalog (β : Type) where
  program : String
  functions : List (FunctionEntry β)
  classes : List (ClassEntry β)

/-- What comes more than once among the registrations, in their order. -/
structure Duplicates where
  names : List String
deriving DecidableEq, Repr

/-- The explanation shown for repeated registrations. -/
def Duplicates.message (d : Duplicates) : String :=
  "catalog: duplicate registrations: " ++ Text.joinStrings ", " d.names

namespace Catalog

variable {β : Type}

/-- The function with this symbol. -/
def function? (c : Catalog β) (symbol : String) : Option (FunctionEntry β) :=
  c.functions.find? (·.symbol = symbol)

/-- The class with this name. -/
def class? (c : Catalog β) (name : String) : Option (ClassEntry β) :=
  c.classes.find? (·.name = name)

/-- All function symbols in order. -/
def symbols (c : Catalog β) : List String :=
  (sortEntries (c.functions.map fun f => (f.symbol, ()))).map Prod.fst

/-- The catalog without entries. -/
def empty (program : String) : Catalog β := ⟨program, [], []⟩

/-- Where a function entry of a registration comes from, with what it requires. -/
def functionEntry? (program : String) : Registration β → Option (FunctionEntry β)
  | .library module symbol requirement body =>
    some ⟨symbol, .module module, some requirement, body⟩
  | .program symbol body => some ⟨symbol, .program program, none, body⟩
  | .foreign module symbol body => some ⟨symbol, .module module, none, body⟩
  | .class _ _ _ _ => none

/-- The methods of a list that do not repeat the name of an earlier one. -/
def firstMethods (methods : List (MethodEntry β)) : List (MethodEntry β) :=
  methods.foldl (fun kept m => if kept.any (·.name = m.name) then kept else kept ++ [m]) []

/-- The names of methods that come again after their first time. -/
def repeatedNames : List String → List String → List String
  | _, [] => []
  | seen, n :: ns =>
    if n ∈ seen then n :: repeatedNames seen ns else repeatedNames (n :: seen) ns

/-- Adds one registration to a catalog; what repeats an earlier one is left out and named. -/
def register (c : Catalog β) (r : Registration β) : Catalog β × List String :=
  match r with
  | .class module name trusted methods =>
    let again := (repeatedNames [] (methods.map MethodEntry.name)).map fun m => s!"{name}.{m}"
    if (c.class? name).isSome then (c, again ++ [name])
    else
      let origin := if module = c.program then Origin.program module else Origin.module module
      ({ c with classes := c.classes ++ [⟨name, origin, trusted, firstMethods methods⟩] }, again)
  | other =>
    match functionEntry? c.program other with
    | none => (c, [])
    | some f =>
      if (c.function? f.symbol).isSome then (c, [f.symbol])
      else ({ c with functions := c.functions ++ [f] }, [])

/-- Adds registrations in order and gathers what is repeated. -/
def registerAll (c : Catalog β) : List (Registration β) → Catalog β × List String
  | [] => (c, [])
  | r :: rs =>
    let (c, again) := c.register r
    let (c, later) := c.registerAll rs
    (c, again ++ later)

/-- **`build program rs`** — the catalog of the registrations, if none of them repeats another. -/
def build (program : String) (rs : List (Registration β)) : Except Duplicates (Catalog β) :=
  let (c, again) := (empty program).registerAll rs
  if again.isEmpty then .ok c else .error ⟨again⟩

/-- The catalog with every body changed by `f`. -/
def map {γ : Type} (f : β → γ) (c : Catalog β) : Catalog γ :=
  { program := c.program
    functions := c.functions.map fun e => ⟨e.symbol, e.origin, e.requirement, f e.body⟩
    classes := c.classes.map fun k =>
      ⟨k.name, k.origin, k.trusted, k.methods.map fun m => ⟨m.name, m.requirement, f m.body⟩⟩ }

end Catalog

end CapabilityGate
