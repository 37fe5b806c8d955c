import CapabilityGate.Sandbox.Run
import CapabilityGate.Scenario.Expr

/-!
# Sessions

A session drives a gate step by step, as a host would: it makes and shares contexts, activates them
and keeps the guards, calls through the gate, launches runs, and asks what has happened. The host is
one thread outside of every call. A context is a draft until it is shared; only a shared one can be
activated, be a parent, or be released by the host. The workers of runs that the host stopped
waiting for go on in the background, as far as the host lets time pass.
-/
namespace CapabilityGate

/-- How a token is asked for. -/
structure TokenRequest where
  capability : Capability
  /-- The patterns that restrict it; none at all for an unrestricted token. -/
  patterns : Option (List String)
  /-- Whether the universal token is meant, if there are no patterns. -/
  universal : Bool
deriving DecidableEq, Repr

/-- The token that was asked for. -/
def TokenRequest.token [Engine] (r : TokenRequest) : Except Pattern.Error Token :=
  match r.patterns with
  | some ps => Token.restricted r.capability ps
  | none => .ok (if r.universal then Token.universal else Token.unrestricted r.capability)

/-- One step of a session. -/
inductive Step where
  /-- Calls a value. -/
  | call (callee : Value) (args : List Value)
  /-- Evaluates an expression outside of every call. -/
  | eval (e : Expr)
  | require (capability : Capability) (resource operation : String)
  /-- Begins a context; a parent that is not shared is left out. -/
  | draft (id name : String) (parent : Option String)
  /-- Adds a token to a draft. -/
  | add (id : String) (token : TokenRequest)
  | share (id : String)
  /-- Lets go of a shared context. -/
  | drop (id : String)
  | context (id : String)
  | query (id : String) (capability : Capability) (resource : Option String) (ancestors : Bool)
  | activate (id : String) (revocation : Option String)
  /-- Drops a guard, the newest one if no number is given. -/
  | deactivate (guard : Option Nat)
  | revoke (name : String)
  | current
  | isActive
  /-- Whether a context is active on a thread that was just started. -/
  | otherThread
  | activations
  /-- Installs a budget, or removes the one there is. -/
  | budget (timeout : Option Timeout)
  | cancel
  | isCancelled
  | violations
  | since (mark : Nat)
  | audit
  | symbols
  | function (symbol : String)
  | class (name : String) (method : Option String)
  | run (id : String) (config : Config) (e : Expr)
  | detached
  /-- Waits for all detached workers. -/
  | drain
  | reports

/-- What a context tells about itself. -/
structure ContextInfo where
  name : String
  parent : Option String
  size : Nat
  own : List Capability
  effective : List Capability

/-- What is known about a function. -/
structure FunctionInfo where
  symbol : String
  origin : Origin
  requirement : Option Requirement

/-- What is known about a class, and about one of its methods if it has it. -/
structure ClassInfo where
  name : String
  origin : Origin
  trusted : Bool
  method : Option (Option Requirement)

/-- The answer to a step. -/
inductive Answer where
  | nothing
  | bool (b : Bool)
  | count (n : Int)
  | result (r : Result)
  | panicked (message : Option String)
  /-- The process of the host would have ended. -/
  | died (death : Death)
  | token (r : Except Fault Token)
  | badPattern (e : Pattern.Error)
  | context (info : ContextInfo)
  | query (holds : Bool) (token : Option Token)
  | active (name : String) (types : List Capability)
  | records (rs : List Record)
  | audit (size mark : Nat) (empty verified : Bool)
  | symbols (program : String) (names : List String)
  | function (info : FunctionInfo)
  | class (info : ClassInfo)
  | outcome (o : Outcome)
  | reports (rs : List Result)
  /-- The step names something that is not there. -/
  | unknown (name : String)

/-- A host, its contexts and the world it acts on. -/
structure Session where
  catalog : Catalog Body
  world : World
  /-- The workers in the background. -/
  late : Option Late
  guarded : Guarded
  drafts : List (String × Context)

namespace Session

/-- A session in which nothing has happened. -/
def start (catalog : Catalog Expr) : Session :=
  { catalog := catalog.map Expr.body, world := .initial, late := none, guarded := .empty,
    drafts := [] }

/-- The shared context with this name. -/
def shared? (s : Session) (name : String) : Option ContextId := s.world.context? name

/-- The gate of the host. -/
def gate (s : Session) : Gate := ⟨s.catalog, s.world.hostBudget⟩

/-- The world as the host sees it. -/
def machine (s : Session) : Machine :=
  ⟨s.world, { Thread.initial with register := s.guarded.register }⟩

/-- The session after the host has acted. -/
def after (s : Session) (m : Machine) : Session :=
  { s with world := m.world, guarded := { s.guarded with register := m.thread.register } }

/-! ## Acting and waiting -/

/-- **`s.perform x`** — what an activity of the host comes to, and the session after it, unless the
process ends. -/
def perform {α : Type} (s : Session) (x : Activity α) : Except Death α × Session :=
  match ((x s.machine).joined s.late).finish with
  | .ok (r, w) => (.ok r.result, { s.after ⟨w, r.thread⟩ with late := r.late })
  | .error (death, w) => (.error death, { s with world := w, late := none })

/-- **`s.await enough`** — lets the workers in the background go on until there is enough or they
have all returned, unless the process ends. -/
def await (s : Session) (enough : World → Bool) : Except Death Unit × Session :=
  match (Late.courseOf s.late s.world).goOn fun _ w => enough w with
  | .ended () w => (.ok (), { s with world := w, late := none })
  | .died death w => (.error death, { s with world := w, late := none })
  | .asleep due w next => (.ok (), { s with world := w, late := some ⟨due, next⟩ })

/-- The answer of an evaluation. -/
def evaluated : Except Death Ending × Session → Answer × Session
  | (.ok (.returned r), s) => (.result r, s)
  | (.ok (.panicked message), s) => (.panicked message, s)
  | (.error death, s) => (.died death, s)

/-- Waits until no more hold the context of a run than held it before; a run that was given up is
not waited for. -/
def settled (s : Session) (id : ContextId) (holders : Nat) (o : Outcome) : Answer × Session :=
  if o.failure.any (·.kind = .timeout) then (.outcome o, s)
  else
    match s.await fun w => w.store.holders id ≤ holders with
    | (.ok (), s) => (.outcome o, s)
    | (.error death, s) => (.died death, s)

/-- Runs an expression in a sandbox. -/
def run (s : Session) (id : ContextId) (config : Config) (e : Expr) : Answer × Session :=
  match s.perform (s.gate.launch id config e.script) with
  | (.ok o, after) => after.settled id (s.world.store.holders id) o
  | (.error death, after) => (.died death, after)

/-! ## Contexts -/

/-- A context by its name, draft or shared, with the contexts behind it. -/
def lineage? (s : Session) (name : String) : Option (Context × Lineage) :=
  match findEntry name s.drafts with
  | some x => some (x, s.world.store.lineage x)
  | none => do
    let id ← s.shared? name
    let x ← s.world.store.find? id
    return (x, s.world.store.lineageOf id)

/-- The number of activations and everything else that an activation by the host changes. -/
def activate (s : Session) (id : ContextId) (revocation : Option Revocation) : Session :=
  let m := s.machine.activate id revocation
  { s with world := m.world, guarded := s.guarded.activate id revocation }

/-- Drops a guard of the host; what was active until now is let go. -/
def dropGuard (s : Session) (guard : Guard) : Session :=
  let store :=
    match s.guarded.register with
    | none => s.world.store
    | some a => s.world.store.release a.context
  { s with world := { s.world with store }, guarded := s.guarded.drop guard }

/-- Lets go of the shared context with this name. -/
def release (s : Session) (name : String) : Session :=
  match s.shared? name with
  | none => s
  | some id =>
    { s with
      world := { s.world.release id with names := s.world.names.filter (·.1 ≠ name) } }

/-- Makes a draft shared. -/
def share (s : Session) (name : String) (x : Context) : Session :=
  let s := s.release name
  { s with
    world := { s.world with
      store := s.world.store.share x
      names := (name, s.world.store.contexts.length) :: s.world.names }
    drafts := s.drafts.filter (·.1 ≠ name) }

/-- What a class tells about itself and one of its methods. -/
def classInfo (k : ClassEntry Body) (method : Option String) : ClassInfo :=
  ⟨k.name, k.origin, k.trusted, (method.bind k.method?).map MethodEntry.requirement⟩

/-- Installs a budget of the host, or removes it. -/
def setBudget (s : Session) (timeout : Option Timeout) : Session :=
  match timeout with
  | none => { s with world := { s.world with hostBudget := none } }
  | some t =>
    let w := s.world.addBudget (s.world.clock + t.nanos)
    { s with world := { w with hostBudget := some s.world.budgets.length } }

/-- The budget of the host. -/
def budget? (s : Session) : Option Budget :=
  s.world.hostBudget.bind fun id => s.world.budgets[id]?

/-- **`s.step step`** — does one step. -/
def step [Engine] (s : Session) : Step → Answer × Session
  | .call callee args => evaluated (s.perform (s.gate.call callee args))
  | .eval e => evaluated (s.perform (s.gate.execute e.script))
  | .require c resource operation =>
    let (r, m) := s.gate.coveringToken c resource operation s.machine
    (.token r, s.after m)
  | .draft id name parent =>
    let x := Context.empty name (parent.bind s.shared?)
    (.nothing, { s with drafts := (id, x) :: s.drafts.filter (·.1 ≠ id) })
  | .add id request =>
    match findEntry id s.drafts with
    | none => (.unknown id, s)
    | some x =>
      match request.token with
      | .error e => (.badPattern e, s)
      | .ok t =>
        let x := x.add t
        (.count x.size, { s with drafts := (id, x) :: s.drafts.filter (·.1 ≠ id) })
  | .share id =>
    match findEntry id s.drafts with
    | none => (.unknown id, s)
    | some x => (.nothing, s.share id x)
  | .drop id => (.bool (s.shared? id).isSome, s.release id)
  | .context id =>
    match s.lineage? id with
    | none => (.unknown id, s)
    | some (x, l) =>
      (.context ⟨x.name, (s.world.store.parent? x).map Context.name, x.size, l.types false,
        l.types true⟩, s)
  | .query id c resource ancestors =>
    match s.lineage? id with
    | none => (.unknown id, s)
    | some (_, l) => (.query (l.holds c resource ancestors) (l.token? c ancestors), s)
  | .activate id revocation =>
    match s.shared? id with
    | none => (.unknown id, s)
    | some n => (.count s.guarded.next, s.activate n (revocation.map Revocation.named))
  | .deactivate number =>
    match number.elim s.guarded.guards.head? s.guarded.guard? with
    | none => (.bool false, s)
    | some guard => (.bool true, s.dropGuard guard)
  | .revoke name => (.bool true, { s with world := s.world.revoke (.named name) })
  | .current =>
    match s.machine.visible with
    | some (x :: l) => (.active x.name (Lineage.types (x :: l) true), s)
    | _ => (.nothing, s)
  | .isActive => (.bool s.machine.visible.isSome, s)
  | .otherThread => (.bool (Machine.mk s.world .initial).visible.isSome, s)
  | .activations => (.count s.world.activations, s)
  | .budget timeout => (.nothing, s.setBudget timeout)
  | .cancel =>
    match s.world.hostBudget with
    | none => (.nothing, s)
    | some id => (.bool true, { s with world := s.world.cancel id })
  | .isCancelled =>
    match s.budget? with
    | none => (.nothing, s)
    | some b => (.bool b.cancelled, s)
  | .violations => (.records s.world.log.records, s)
  | .since mark => (.records (s.world.log.since mark), s)
  | .audit =>
    let log := s.world.log
    (.audit log.records.length log.mark log.isEmpty log.verify.isOk, s)
  | .symbols => (.symbols s.catalog.program s.catalog.symbols, s)
  | .function symbol =>
    match s.catalog.function? symbol with
    | none => (.nothing, s)
    | some f => (.function ⟨f.symbol, f.origin, f.requirement⟩, s)
  | .class name method =>
    match s.catalog.class? name with
    | none => (.nothing, s)
    | some k => (.class (classInfo k method), s)
  | .run id config e =>
    match s.shared? id with
    | none => (.unknown id, s)
    | some n => s.run n config e
  | .detached => (.count s.world.pool.detached, s)
  | .drain =>
    match s.await fun _ => false with
    | (.ok (), s) => (.count s.world.pool.detached, s)
    | (.error death, s) => (.died death, s)
  | .reports => (.reports s.world.reports, s)

/-- Does steps in order. -/
def steps [Engine] (s : Session) : List Step → List Answer
  | [] => []
  | step :: rest =>
    let (answer, s) := s.step step
    answer :: s.steps rest

end Session

end CapabilityGate
