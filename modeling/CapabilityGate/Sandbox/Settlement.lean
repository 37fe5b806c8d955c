/-!
# Settlement of thread runs

A run on a thread is shared by two parties. The *worker* executes the unit and then tries to mark
the run as finished; the *waiter* waits for the result until the deadline and then tries to mark the
run as abandoned. Whoever comes first wins, once and for all. Abandoned workers that have not
returned yet are counted: the waiter counts before it tries and takes the count back when it loses,
and a worker that loses takes the count back itself. Each move below is one atomic step, and the
moves of the two parties and of different runs may be interleaved in any way.
-/
namespace CapabilityGate

/-- What has been decided about a run. -/
inductive Verdict where
  | running
  | finished
  | abandoned
deriving DecidableEq, Repr

/-- How far the waiter of a run has come. -/
inductive Waiter where
  /-- Waiting for the result or the deadline. -/
  | waiting
  /-- The deadline has passed. -/
  | expired
  /-- The context of the run is revoked. -/
  | revoked
  /-- The budget of the run is cancelled. -/
  | cancelled
  /-- The worker is counted. -/
  | counted
  /-- The run was finished already, so the count has to be taken back. -/
  | overtaken
  | returned
deriving DecidableEq, Repr

/-- How far the worker of a run has come. -/
inductive Worker where
  /-- Executing the unit. -/
  | working
  /-- The run was abandoned, so the count has to be taken back. -/
  | late
  /-- About to send the result. -/
  | settled
  | returned
deriving DecidableEq, Repr

/-- A run, as far as its settlement goes. -/
structure Settlement where
  verdict : Verdict
  waiter : Waiter
  worker : Worker
deriving DecidableEq, Repr

/-- One atomic step of one of the parties. -/
inductive Move where
  /-- The waiter takes the result that was sent. -/
  | receive
  /-- The waiter sees that the deadline has passed. -/
  | expire
  /-- The waiter does its next step after the deadline. -/
  | waiter
  /-- The worker does its next step. -/
  | worker
deriving DecidableEq, Repr

namespace Settlement

/-- A run that has just started. -/
def start : Settlement := ⟨.running, .waiting, .working⟩

/-- **`s.step move`** — the run after a move and the change of the count; a move that is not
possible changes nothing. -/
def step (s : Settlement) : Move → Settlement × Int
  | .receive =>
    match s.waiter, s.worker with
    | .waiting, .returned => ({ s with waiter := .returned }, 0)
    | _, _ => (s, 0)
  | .expire =>
    match s.waiter with
    | .waiting => ({ s with waiter := .expired }, 0)
    | _ => (s, 0)
  | .waiter =>
    match s.waiter with
    | .expired => ({ s with waiter := .revoked }, 0)
    | .revoked => ({ s with waiter := .cancelled }, 0)
    | .cancelled => ({ s with waiter := .counted }, 1)
    | .counted =>
      if s.verdict = .running then ({ s with verdict := .abandoned, waiter := .returned }, 0)
      else ({ s with waiter := .overtaken }, 0)
    | .overtaken => ({ s with waiter := .returned }, -1)
    | .waiting => (s, 0)
    | .returned => (s, 0)
  | .worker =>
    match s.worker with
    | .working =>
      if s.verdict = .running then ({ s with verdict := .finished, worker := .settled }, 0)
      else ({ s with worker := .late }, 0)
    | .late => ({ s with worker := .settled }, -1)
    | .settled => ({ s with worker := .returned }, 0)
    | .returned => (s, 0)

end Settlement

/-- All thread runs so far, oldest first, and the count of detached workers. -/
structure Pool where
  runs : List Settlement
  detached : Int
deriving DecidableEq, Repr

namespace Pool

/-- No runs. -/
def empty : Pool := ⟨[], 0⟩

/-- Starts a run; its number is the number of runs before it. -/
def start (p : Pool) : Pool := { p with runs := p.runs ++ [.start] }

/-- **`p.step i move`** — a move in run `i`. -/
def step (p : Pool) (i : Nat) (move : Move) : Pool :=
  match p.runs[i]? with
  | none => p
  | some s => ⟨p.runs.set i (s.step move).1, p.detached + (s.step move).2⟩

/-- Moves in run `i`, one after the other. -/
def steps (p : Pool) (i : Nat) (moves : List Move) : Pool :=
  moves.foldl (fun p move => p.step i move) p

/-- The worker returns in time, and the waiter takes the result. -/
def finish (p : Pool) (i : Nat) : Pool := p.steps i [.worker, .worker, .receive]

/-- The deadline passes while the worker is busy. -/
def abandon (p : Pool) (i : Nat) : Pool :=
  p.steps i [.expire, .waiter, .waiter, .waiter, .waiter]

/-- The worker of an abandoned run returns. -/
def workerReturns (p : Pool) (i : Nat) : Pool := p.steps i [.worker, .worker, .worker]

end Pool

end CapabilityGate
