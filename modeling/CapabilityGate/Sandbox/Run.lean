import CapabilityGate.Gate.Evaluate
import CapabilityGate.Wire.Outcome

/-!
# Runs

A run executes one unit with one context active, under a deadline and a memory limit, and turns
whatever happens into an outcome. On a thread the unit gets a register and a call depth of its own;
when the deadline passes its context is revoked and its budget cancelled, and the thread goes on in
the background without anybody waiting for it. In a process the unit works on a copy of everything,
and what comes back is a text: the result and the denials it logged. A process can also be killed,
stop for good, or end without a text; the workers in its background end with it.
-/
namespace CapabilityGate

/-! ## The context of a run -/

/-- The name of the context that a run without enforcement gets. -/
def unrestrictedName (name : String) : String := name ++ "+unrestricted"

/-- A child of the caller's context that holds the universal token. -/
def unrestrictedContext (w : World) (context : ContextId) : Context :=
  let name := ((w.store.find? context).map Context.name).getD ""
  (Context.empty (unrestrictedName name) (some context)).add Token.universal

/-- The context that the unit of a run gets. -/
def runContext (w : World) (context : ContextId) (config : Config) : ContextId :=
  if config.security then context else w.store.contexts.length

/-- The world in which a run holds the context of its unit and the one of its caller. -/
def heldForRun (w : World) (context : ContextId) (config : Config) : World :=
  let store := w.store.hold context
  { w with store :=
      if config.security then store.hold context else store.share (unrestrictedContext w context) }

/-- Lets go of the two contexts that a run holds. -/
def Store.releaseBoth (s : Store) (effective context : ContextId) : Store :=
  (s.release effective).release context

/-! ## Outcomes by their causes -/

/-- The explanation of a panic. -/
def panicText (payload : Option String) : String :=
  "code unit panicked: " ++ payload.getD "unknown panic payload"

/-- The outcome of a run that did not end before its deadline. -/
def timedOut (config : Config) (elapsed : Duration) : Outcome :=
  .failed .timeout ("timeout after " ++ config.timeout.display) elapsed

/-- The outcome of settings that are refused. -/
def refusedSettings (e : Config.Error) : Outcome := .failed .internal e.message .zero

/-- The outcome when no thread can be had. -/
def noThread : Outcome :=
  .failed .internal
    "sandbox: failed to spawn worker thread: Resource temporarily unavailable (os error 11)" .zero

/-- The signals that a process without a response gets when its memory gives out. -/
def memorySignals : List Nat := [Signal.abort, Signal.badAddress, Signal.badPage]

/-- Does this signal mean that the memory gave out; `silent` says that there was no response. -/
def meansMemory (signal : Nat) (silent : Bool) : Bool :=
  signal = Signal.kill || (silent && memorySignals.contains signal)

/-- The outcome of a process that was killed by a signal. -/
def killedBy (config : Config) (signal : Nat) (silent : Bool) (elapsed : Duration) : Outcome :=
  let cause := s!"worker terminated by signal {signal}"
  if signal = Signal.time then timedOut config elapsed
  else if meansMemory signal silent then
    .failed .memory (s!"memory limit {config.memory.display} exceeded (" ++ cause ++ ")") elapsed
  else .failed .internal ("sandbox: " ++ cause) elapsed

/-- The outcome of a process that ended by itself without a response. -/
def silentExit (status : Nat) (elapsed : Duration) : Outcome :=
  .failed .internal s!"sandbox: worker exited with status {status} and no response" elapsed

/-- The outcome of a response that cannot be read. -/
def unreadableResponse (elapsed : Duration) : Outcome :=
  .failed .internal "sandbox: response decode failed" elapsed

/-- The outcome of a response. -/
def Response.outcome (r : Response) (elapsed : Duration) : Outcome :=
  match r.panicked with
  | some message => .failed .panic (panicText (some message)) elapsed
  | none => .ofResult r.result elapsed

/-- What a worker process sends back for the ending of its unit. -/
def Response.ofEnding (ending : Ending) (violations : List Record) : Response :=
  match ending with
  | .returned result => ⟨result, none, violations⟩
  | .panicked payload =>
    ⟨.error (.failed "panic"), some (payload.getD "unknown panic payload"), violations⟩

/-! ## Runs on a thread -/

/-- The outcome of a unit that ended in time on a thread. -/
def Ending.outcome (ending : Ending) (elapsed : Duration) : Outcome :=
  match ending with
  | .returned result => .ofResult result elapsed
  | .panicked payload => .failed .panic (panicText payload) elapsed

/-- A run on a thread, by its number, with what has to be known to end it. -/
structure ThreadRun where
  number : Nat
  budget : BudgetId
  /-- The context of the unit and the one of the caller. -/
  effective : ContextId
  context : ContextId
  start : Time
  config : Config

namespace ThreadRun

/-- The run that starts next. -/
def next (w : World) (context : ContextId) (config : Config) : ThreadRun :=
  { number := w.pool.runs.length, budget := w.budgets.length
    effective := runContext w context config, context, start := w.clock, config }

/-- When the caller stops waiting. -/
def deadline (r : ThreadRun) : Time := r.start + r.config.timeout.nanos

/-- The switch that the context of the unit answers to. -/
def switch (r : ThreadRun) : Revocation := .ofRun r.number

/-- The world in which the unit begins. -/
def opened (r : ThreadRun) (w : World) : World :=
  let w := (heldForRun w r.context r.config).addBudget r.deadline
  { w with pool := w.pool.start }

/-- The world after the unit has ended in time. -/
def closed (r : ThreadRun) (w : World) : World :=
  { w with pool := w.pool.finish r.number, store := w.store.releaseBoth r.effective r.context }

/-- The world after the caller has stopped waiting. -/
def abandoned (r : ThreadRun) (w : World) : World :=
  let w := (w.revoke r.switch).cancel r.budget
  { w with pool := w.pool.abandon r.number }

/-- The world after the worker of an abandoned run has returned. -/
def returned (r : ThreadRun) (w : World) : World :=
  { w with
    pool := w.pool.workerReturns r.number
    store := w.store.releaseBoth r.effective r.context }

/-- What is left of an abandoned run: the worker goes on, returns, and leaves its own workers. -/
def rest (r : ThreadRun) (due : Time) (next : World → Course (Return Ending)) : Late :=
  ⟨due, fun w => (next w).bind fun x w => Late.courseOf x.late (r.returned w)⟩

/-- **`r.watch caller worker`** — the caller of a run waits for the worker until the deadline. -/
def watch (r : ThreadRun) (caller : Thread) (worker : Course (Return Ending)) :
    Course (Return Outcome) :=
  worker.race r.deadline
    (fun x w => .ended ⟨x.result.outcome ⟨w.clock - r.start⟩, caller, x.late⟩ (r.closed w))
    (fun due next w =>
      .ended ⟨timedOut r.config r.config.timeout, caller, some (r.rest due next)⟩ (r.abandoned w))

end ThreadRun

/-- **`runOnThread evaluate g context config unit`** — a run on a thread of its own. -/
def runOnThread (evaluate : Gate → Script → Activity Ending) (g : Gate) (context : ContextId)
    (config : Config) (unit : Script) : Activity Outcome := fun m =>
  let run := ThreadRun.next m.world context config
  let work := evaluate ⟨g.catalog, some run.budget⟩ unit
  run.watch m.thread
    (work.activated run.effective (some run.switch) ⟨run.opened m.world, .initial⟩)

/-! ## Runs in a process -/

/-- How a worker process came to its end. -/
inductive ProcessExit where
  /-- It ended by itself. -/
  | exited (status : Nat)
  | killed (signal : Nat)
  /-- It was still there at the deadline. -/
  | timedOut
deriving DecidableEq, Repr

/-- The end of a worker process as its caller sees it, with the text that was written. -/
structure ProcessEnd where
  exit : ProcessExit
  text : String
  time : Time
deriving DecidableEq, Repr

namespace ProcessEnd

/-- The end of a process that died at this time. -/
def ofDeath (deadline : Time) (death : Death) (time : Time) : ProcessEnd :=
  match death with
  | .signal number => ⟨.killed number, "", time⟩
  | .exit status => ⟨.exited status, "", time⟩
  | .stopped => ⟨.timedOut, "", deadline⟩

/-- The end of a process whose unit had ended in this world. -/
def ofEnding (ending : Ending) (w : World) : ProcessEnd :=
  ⟨.exited 0, (Response.ofEnding ending w.log.records).write, w.clock⟩

/-- The end of a process that is killed at the deadline if it is still there, and the bodies that
were entered in it. -/
def ofCourse (deadline : Time) (c : Course (Return Ending)) : ProcessEnd × List Entry :=
  match c.goOn fun due _ => deadline ≤ due with
  | .ended r w => (ofEnding r.result w, w.entries)
  | .died death w => (ofDeath deadline death w.clock, w.entries)
  | .asleep _ w _ => (⟨.timedOut, "", deadline⟩, w.entries)

/-- The outcome of a process and the denials that come with it. -/
def outcome (p : ProcessEnd) (config : Config) (elapsed : Duration) : Outcome × List Record :=
  match p.exit with
  | .timedOut => (CapabilityGate.timedOut config config.timeout, [])
  | .killed signal => (killedBy config signal p.text.isEmpty elapsed, [])
  | .exited status =>
    if p.text.isEmpty then (silentExit status elapsed, [])
    else
      match Response.read? p.text with
      | some r => (r.outcome elapsed, r.violations)
      | none => (unreadableResponse elapsed, [])

end ProcessEnd

/-- The world after a process has ended: its caller lets go of the contexts, and keeps the denials
and the journal. -/
def afterProcess (effective context : ContextId) (violations : List Record) (entries : List Entry)
    (w : World) : World :=
  { w with
    store := w.store.releaseBoth effective context
    log := w.log.extend violations
    entries := entries ++ w.entries }

/-- **`runInProcess evaluate g context config unit`** — a run in a process of its own. -/
def runInProcess (evaluate : Gate → Script → Activity Ending) (g : Gate) (context : ContextId)
    (config : Config) (unit : Script) : Activity Outcome := fun m =>
  let start := m.world.clock
  let deadline := start + config.timeout.nanos
  let budget := m.world.budgets.length
  let effective := runContext m.world context config
  let held := heldForRun m.world context config
  let work := evaluate ⟨g.catalog, some budget⟩ unit
  let child : Machine := ⟨(held.fork config.memory).addBudget deadline, m.thread⟩
  let (processEnd, entries) := ProcessEnd.ofCourse deadline (work.activated effective none child)
  let (outcome, violations) := processEnd.outcome config ⟨processEnd.time - start⟩
  .later processEnd.time held fun w =>
    .ended ⟨outcome, m.thread, none⟩ (afterProcess effective context violations entries w)

/-! ## Any run -/

/-- **`run evaluate g context config unit`** — a run with settings that are checked first; refused
settings run nothing. -/
def run (evaluate : Gate → Script → Activity Ending) (g : Gate) (context : ContextId)
    (config : Config) (unit : Script) : Activity Outcome :=
  match config.validate with
  | .error e => Activity.pure (refusedSettings e)
  | .ok () =>
    match config.isolation with
    | .thread => runOnThread evaluate g context config unit
    | .process => runInProcess evaluate g context config unit

/-- **`launchAt fuel`** — launches with at most `fuel` runs nested in one another; beyond that no
further worker can be had. -/
def launchAt : Nat → Launches
  | 0 => fun _ _ _ _ => Activity.pure noThread
  | fuel + 1 =>
    run fun g script => script.evaluate (callAt (launchAt fuel) maxDepth) (launchAt fuel) g

/-- The runs that may be nested in one another. -/
def nestedRuns : Nat := 128

/-- How launches are answered outside of every run. -/
def launches : Launches := launchAt nestedRuns

/-- How calls are answered outside of every call. -/
def calls : Calls := callAt launches maxDepth

/-- **`g.call callee args`** — a call through the gate. -/
def Gate.call (g : Gate) (callee : Value) (args : List Value) : Activity Ending :=
  calls g callee args

/-- **`g.execute script`** — evaluates a script outside of every call. -/
def Gate.execute (g : Gate) (script : Script) : Activity Ending :=
  script.evaluate calls launches g

/-- **`g.launch context config unit`** — runs a unit in a sandbox. -/
def Gate.launch (g : Gate) (context : ContextId) (config : Config) (unit : Script) :
    Activity Outcome :=
  launches g context config unit

end CapabilityGate
