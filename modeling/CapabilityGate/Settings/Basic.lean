import CapabilityGate.Files
import CapabilityGate.Sandbox.Config
import CapabilityGate.Settings.Grant
import CapabilityGate.Toml.Reader

/-!
# Settings files

A settings file has a table `sandbox` with the settings of runs and tables `grant` with what is
handed out. `Draft.ofEntries?` wants a file of this shape, with no other keys; `Settings.ofDraft`
then reads sizes, isolation and names, and last everything is validated, so that accepted settings
can always be issued.
-/
namespace CapabilityGate

/-- Settings of runs and what is handed out. -/
structure Settings where
  sandbox : Config
  grants : List Grant
deriving DecidableEq, Repr

namespace Settings

/-! ## The shape of a file -/

/-- An amount of memory as a file gives it. -/
inductive MemoryEntry where
  | bytes (n : Nat)
  | text (s : String)
deriving DecidableEq, Repr

/-- The settings of runs as a file gives them. -/
structure SandboxEntry where
  timeoutMillis : Option Nat
  memory : Option MemoryEntry
  security : Option Bool
  isolation : Option String
deriving DecidableEq, Repr

/-- A grant as a file gives it. -/
structure GrantEntry where
  capability : String
  patterns : Option (List String)
deriving DecidableEq, Repr

/-- The contents of a file of the right shape. -/
structure Draft where
  sandbox : SandboxEntry
  grants : List GrantEntry
deriving DecidableEq, Repr

/-- Nothing is set. -/
def SandboxEntry.empty : SandboxEntry := ⟨none, none, none, none⟩

/-- A natural number. -/
def natural? : Toml.Value → Option Nat
  | .integer n => if 0 ≤ n then some n.toNat else none
  | _ => none

/-- A text. -/
def text? : Toml.Value → Option String
  | .string s => some s
  | _ => none

/-- A truth value. -/
def boolean? : Toml.Value → Option Bool
  | .boolean b => some b
  | _ => none

/-- An amount of memory. -/
def memory? : Toml.Value → Option MemoryEntry
  | .integer n => if 0 ≤ n then some (.bytes n.toNat) else none
  | .string s => some (.text s)
  | _ => none

/-- An array of texts. -/
def texts? : Toml.Value → Option (List String)
  | .array items => items.mapM text?
  | _ => none

/-- The value under a key that may be missing. -/
def optional? {α : Type} (value? : Toml.Value → Option α) (key : String)
    (es : List (String × Toml.Value)) : Option (Option α) :=
  match findEntry key es with
  | none => some none
  | some v => (value? v).map some

/-- Are all keys of a table among the given ones. -/
def onlyKeys (keys : List String) (es : List (String × Toml.Value)) : Bool :=
  es.all fun e => keys.contains e.1

/-- The settings of runs: a table, or an array with at least the four values in order. -/
def sandbox? : Toml.Value → Option SandboxEntry
  | .table es => do
    if !onlyKeys ["cpu_timeout_ms", "memory_limit", "security_enabled", "isolation"] es then none
    let t ← optional? natural? "cpu_timeout_ms" es
    let m ← optional? memory? "memory_limit" es
    let s ← optional? boolean? "security_enabled" es
    let i ← optional? text? "isolation" es
    return ⟨t, m, s, i⟩
  | .array (t :: m :: s :: i :: _) => do
    return ⟨some (← natural? t), some (← memory? m), some (← boolean? s), some (← text? i)⟩
  | _ => none

/-- A grant: a table with a capability, or an array with at least capability and patterns. -/
def grant? : Toml.Value → Option GrantEntry
  | .table es => do
    if !onlyKeys ["capability", "patterns"] es then none
    let c ← (findEntry "capability" es).bind text?
    let p ← optional? texts? "patterns" es
    return ⟨c, p⟩
  | .array (c :: p :: _) => do
    return ⟨← text? c, some (← texts? p)⟩
  | _ => none

/-- A list of grants. -/
def grants? : Toml.Value → Option (List GrantEntry)
  | .array items => items.mapM grant?
  | _ => none

/-- The contents of a document of the right shape. -/
def Draft.ofEntries? (es : List (String × Toml.Value)) : Option Draft := do
  if !onlyKeys ["sandbox", "grant"] es then none
  let s ← optional? sandbox? "sandbox" es
  let g ← optional? grants? "grant" es
  return ⟨s.getD SandboxEntry.empty, g.getD []⟩

/-! ## What a file means -/

/-- Why a settings file is refused. -/
inductive Error where
  /-- It is no document of the right shape. -/
  | document
  | size (e : ByteSize.Error)
  | isolation (e : Isolation.Error)
  | name (e : Capability.NameError)
  | config (e : Config.Error)
  | pattern (capability : Capability) (e : Pattern.Error)
deriving DecidableEq, Repr

/-- The explanation shown for refused settings, if this library has words for it. -/
def Error.message? : Error → Option String
  | document => none
  | size e => some e.message
  | isolation e => some e.message
  | name e => some e.message
  | config e => some e.message
  | pattern c e => some (s!"grant '{c.name}': " ++ e.message)

/-- The amount of memory of an entry. -/
def MemoryEntry.size : MemoryEntry → Except Error ByteSize
  | bytes n => .ok ⟨UInt64.ofNat n⟩
  | text s => (ByteSize.parse s).mapError .size

/-- The settings of runs of an entry; what is not set has its default. -/
def SandboxEntry.config (e : SandboxEntry) : Except Error Config := do
  let memory ←
    match e.memory with
    | none => .ok Config.default.memory
    | some m => m.size
  let isolation ←
    match e.isolation with
    | none => .ok Config.default.isolation
    | some s => (Isolation.parse s).mapError .isolation
  return { timeout := (e.timeoutMillis.map Duration.ofMillis).getD Config.default.timeout
           memory
           security := e.security.getD Config.default.security
           isolation }

/-- The grant of an entry. -/
def GrantEntry.grant (e : GrantEntry) : Except Error Grant :=
  match Capability.parse e.capability with
  | .error err => .error (.name err)
  | .ok c => .ok ⟨c, e.patterns⟩

/-- The settings of a draft, not validated yet. -/
def ofDraft (d : Draft) : Except Error Settings := do
  let sandbox ← d.sandbox.config
  let grants ← d.grants.mapM GrantEntry.grant
  return ⟨sandbox, grants⟩

/-- Refuses a grant that has no token. -/
def checkGrant [Engine] (g : Grant) : Except Error Unit :=
  match g.token with
  | .error e => .error (.pattern g.capability e)
  | .ok _ => .ok ()

/-- Refuses settings of runs, and then grants, that are not valid. -/
def validate [Engine] (s : Settings) : Except Error Unit := do
  s.sandbox.validate.mapError .config
  s.grants.forM checkGrant

/-- Five seconds, 256 MiB, and nothing handed out. -/
def default : Settings := ⟨Config.default, []⟩

/-- **`ofDocument d`** — the settings that a document gives, if it is a document at all. -/
def ofDocument [Engine] (d : Option (List (String × Toml.Value))) : Except Error Settings :=
  match d.bind Draft.ofEntries? with
  | none => .error .document
  | some draft => do
    let s ← ofDraft draft
    s.validate
    return s

/-- **`ofText text`** — the settings that a text gives. -/
def ofText [Engine] (text : String) : Except Error Settings := ofDocument (Toml.parse text)

/-- **`s.rootContext name`** — a context with the tokens of all grants, later ones in place of
earlier ones for the same capability. -/
def rootContext [Engine] (s : Settings) (name : String) : Except Pattern.Error Context :=
  s.grants.foldlM (fun x g => g.token.map x.add) (Context.empty name none)

/-! ## Files -/

/-- Why the settings of a file are refused. -/
inductive LoadError where
  | unreadable (path : String) (e : FileError)
  | invalid (path : String) (e : Error)
deriving DecidableEq, Repr

/-- The explanation shown for a refused file; it stops after the path where the words for the rest
are not this library's. -/
def LoadError.message : LoadError → String
  | unreadable path e => s!"failed to read config file {path}: " ++ e.message
  | invalid path e =>
    match e.message? with
    | some reason => s!"invalid config file {path}: " ++ reason
    | none => s!"invalid config file {path}:"

/-- **`load path contents`** — the settings of a file. -/
def load [Engine] (path : String) (contents : Except FileError String) : Except LoadError Settings :=
  match contents with
  | .ok s => (ofText s).mapError (.invalid path)
  | .error e => .error (.unreadable path e)

end Settings

end CapabilityGate
