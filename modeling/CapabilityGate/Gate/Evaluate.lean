import CapabilityGate.Gate.Admission

/-!
# Evaluation of scripts

`Script.evaluate` walks down a script and answers its requests. Calls and launches are answered by
parameters: `callAt` ties the knot for calls, with one level of `room` for each call in progress,
and launches are tied in `Sandbox/Run`. An activation is undone on every way out of its body, and so
is the count of a call.
-/
namespace CapabilityGate

/-- How calls are answered. -/
abbrev Calls := Gate → Value → List Value → Activity Ending

/-- How launches are answered. -/
abbrev Launches := Gate → ContextId → Config → Script → Activity Outcome

namespace Script

/-- **`s.evaluate calls launches g`** — answers the requests of a script, in order. -/
def evaluate (calls : Calls) (launches : Launches) (g : Gate) : Script → Activity Ending
  | finish result => Activity.pure (.returned result)
  | panic message => Activity.pure (.panicked message)
  | call callee args next =>
    (calls g callee args).andThen fun result => evaluate calls launches g (next result)
  | require c resource operation next => fun m =>
    let (answer, m) := g.coveringToken c resource operation m
    evaluate calls launches g (next answer) m
  | find name next => fun m => evaluate calls launches g (next (m.world.context? name)) m
  | within context body next =>
    (Activity.activated (evaluate calls launches g body) context none).andThen fun result =>
      evaluate calls launches g (next result)
  | current next => fun m => evaluate calls launches g (next m.visible) m
  | revoke revocation next => fun m =>
    evaluate calls launches g next (m.change (·.revoke revocation))
  | cancel next => fun m => evaluate calls launches g next (m.change World.cancelHost)
  | report result next => fun m => evaluate calls launches g next (m.change (·.report result))
  | sleep time next => fun m =>
    .later (m.world.clock + time.nanos) m.world fun w =>
      evaluate calls launches g next { m with world := w }
  | launch context config unit next =>
    (launches g context config unit).bind fun outcome => evaluate calls launches g (next outcome)
  | raise signal next => fun m =>
    match Signal.raise m.world.spent signal with
    | .ok spent => evaluate calls launches g next (m.change fun w => { w with spent })
    | .error death => .died death m.world
  | exit status => fun m => .died (.exit status) m.world
  | allocate bytes next => fun m =>
    if m.world.affords bytes then evaluate calls launches g next m
    else .died (.signal Signal.abort) m.world

end Script

/-- **`callAt launches room`** — calls with at most `room` more calls nested in them. The depth of
the thread is counted on its own; a thread at depth `maxDepth - room` never runs out of room. -/
def callAt (launches : Launches) : Nat → Calls
  | 0 => fun g callee args => g.checkedCall (fun _ => Activity.refuse depthFault) callee args
  | room + 1 => fun g callee args =>
    g.checkedCall (fun script => script.evaluate (callAt launches room) launches g) callee args

end CapabilityGate
