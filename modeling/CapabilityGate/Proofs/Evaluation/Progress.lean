import CapabilityGate.Proofs.Evaluation.Recursion
import Mathlib.Logic.Relation

/-!
# A thread in the middle of an evaluation

The evaluator says what becomes of a script as a whole. What there is to say of a call that is made
somewhere in the middle, of the calls in progress at that moment and of all that is still to come,
is easier to say of the thread itself, turn by turn. `Progress` is where a thread stands: what it is
at, what it will go back to, its register and its depth. `Progress.turn` is what it does next, and
`Progress.course_turn` says that the evaluator does just that: what a thread comes to is what it
comes to after its next turn.

Between two turns others may change the world, and a body may have other gates at hand than the one
that it was given. `Surroundings` says which, and `Progress.Moves` is a turn among them. What a turn
does to the thread is said once, in `Script.turn_shape` and `Ending.turn_shape`.
-/
namespace CapabilityGate

/-! ## Where a thread stands -/

/-- What a thread goes back to. -/
inductive Frame where
  /-- A script that waits for the answer to a call, or for what it runs in another context. -/
  | awaits (g : Gate) (next : Result → Script)
  /-- The end of a call in progress. -/
  | call
  /-- The end of an activation, with what the register held before. -/
  | activation (context : ContextId) (previous : Register)

/-- What a thread is at. -/
inductive Focus where
  /-- A script is about to go on. -/
  | script (g : Gate) (s : Script)
  /-- A script has ended. -/
  | ending (e : Ending)

/-- **`Progress`** — where a thread stands in the middle of an evaluation; the innermost frame is
the first one. -/
structure Progress where
  focus : Focus
  frames : List Frame
  thread : Thread

/-- What a thread does next. -/
inductive Turn where
  /-- It goes on. -/
  | goes (p : Progress) (w : World)
  /-- It goes on at a time. -/
  | sleeps (due : Time) (p : Progress) (w : World)
  /-- It waits for the outcome of a run. -/
  | waits (g : Gate) (context : ContextId) (config : Config) (unit : Script)
      (next : Outcome → Progress) (t : Thread) (w : World)
  | ended (e : Ending) (t : Thread) (w : World)
  | died (death : Death) (w : World)

namespace Machine

/-- A script goes on. -/
def goOn (m : Machine) (g : Gate) (frames : List Frame) (s : Script) : Turn :=
  .goes ⟨.script g s, frames, m.thread⟩ m.world

/-- Something has ended. -/
def stop (m : Machine) (frames : List Frame) (e : Ending) : Turn :=
  .goes ⟨.ending e, frames, m.thread⟩ m.world

end Machine

/-- What a decision about a call comes to, on a machine on which the budget has been checked. -/
def Decision.turn (g : Gate) (frames : List Frame) (callee : Value) (args : List Value)
    (next : Result → Script) (m : Machine) : Decision → Turn
  | refuse fault => m.goOn g frames (next (.error fault))
  | lacking missing held resource =>
    let records := denialRecords missing resource callee.symbol m.world.clock
    (m.change fun w => { w with log := w.log.extend records }).goOn g frames
      (next (.error (.capability callee.symbol missing held)))
  | enter receiver body =>
    (m.enter.noteEntry callee true).goOn g (.call :: .awaits g next :: frames) (body receiver args)
  | primitive method receiver =>
    (m.change fun _ => (m.enter.noteEntry callee false).world).goOn g frames
      (next ((method.apply receiver args).mapError Misuse.fault))

/-- **`s.turn g frames m`** — what a thread does that has come to a script. -/
def Script.turn (g : Gate) (frames : List Frame) (m : Machine) : Script → Turn
  | finish result => m.stop frames (.returned result)
  | panic message => m.stop frames (.panicked message)
  | call callee args next =>
    (g.decision callee args m).turn g frames callee args next (m.afterCheck g.budget)
  | require c resource operation next =>
    let (answer, m) := g.coveringToken c resource operation m
    m.goOn g frames (next answer)
  | find name next => m.goOn g frames (next (m.world.context? name))
  | within context body next =>
    (m.activate context none).goOn g
      (.activation context m.thread.register :: .awaits g next :: frames) body
  | current next => m.goOn g frames (next m.visible)
  | revoke revocation next => (m.change (·.revoke revocation)).goOn g frames next
  | cancel next => (m.change World.cancelHost).goOn g frames next
  | report result next => (m.change (·.report result)).goOn g frames next
  | sleep time next =>
    let due := m.world.clock + time.nanos
    if due ≤ m.world.clock then m.goOn g frames next
    else .sleeps due ⟨.script g next, frames, m.thread⟩ m.world
  | launch context config unit next =>
    .waits g context config unit (fun outcome => ⟨.script g (next outcome), frames, m.thread⟩)
      m.thread m.world
  | raise signal next =>
    match Signal.raise m.world.spent signal with
    | .ok spent => (m.change fun w => { w with spent }).goOn g frames next
    | .error death => .died death m.world
  | exit status => .died (.exit status) m.world
  | allocate bytes next =>
    if m.world.affords bytes then m.goOn g frames next
    else .died (.signal Signal.abort) m.world

/-- **`e.turn frames m`** — what a thread does that has come to the end of something. -/
def Ending.turn (e : Ending) (m : Machine) : List Frame → Turn
  | [] => .ended e m.thread m.world
  | .awaits g next :: frames =>
    match e with
    | .returned result => m.goOn g frames (next result)
    | .panicked message => m.stop frames (.panicked message)
  | .call :: frames => m.leave.stop frames e
  | .activation context previous :: frames => (m.restore context previous).stop frames e

namespace Progress

/-- A thread that begins with a script. -/
def start (g : Gate) (s : Script) (t : Thread) : Progress := ⟨.script g s, [], t⟩

/-- **`p.turn w`** — what a thread does next. -/
def turn (p : Progress) (w : World) : Turn :=
  match p.focus with
  | .script g s => s.turn g p.frames ⟨w, p.thread⟩
  | .ending e => e.turn ⟨w, p.thread⟩ p.frames

/-- The thread takes up another gate that it has at hand. -/
def through (h : Gate) (p : Progress) : Progress :=
  match p.focus with
  | .script _ s => { p with focus := .script h s }
  | .ending _ => p

end Progress

/-! ## The evaluator does the same -/

section Course

variable (runs : Nat)

/-- What the evaluator makes of a script, with calls of any depth and so many runs nested in one
another. -/
def Script.activity (g : Gate) (s : Script) : Activity Ending :=
  s.evaluate (callAt (launchAt runs) maxDepth) (launchAt runs) g

/-- What the evaluator makes of what a thread is at. -/
def Focus.activity : Focus → Activity Ending
  | script g s => s.activity runs g
  | ending e => Activity.pure e

/-- What the evaluator does when something has ended within a frame. -/
def Frame.resume : Frame → Return Ending → World → Course (Return Ending)
  | awaits g next, r, w =>
    let answered := (Activity.pure r.result).andThen fun result => (next result).activity runs g
    (answered ⟨w, r.thread⟩).joined r.late
  | call, r, w =>
    let after := Machine.leave ⟨w, r.thread⟩
    .ended { r with thread := after.thread } after.world
  | activation context previous, r, w =>
    let after := Machine.restore ⟨w, r.thread⟩ context previous
    .ended { r with thread := after.thread } after.world

/-- What the evaluator does within frames, from the innermost to the outermost. -/
def resumeAll (frames : List Frame) (c : Course (Return Ending)) : Course (Return Ending) :=
  frames.foldl (fun c f => c.bind (f.resume runs)) c

namespace Progress

/-- **`p.courseBeside runs late w`** — what becomes of a thread that has left workers behind: what it
is at goes on beside them, as it would without. -/
def courseBeside (late : Option Late) (p : Progress) (w : World) : Course (Return Ending) :=
  resumeAll runs p.frames ((p.focus.activity runs ⟨w, p.thread⟩).joined late)

/-- **`p.course runs w`** — what becomes of a thread. -/
def course (p : Progress) (w : World) : Course (Return Ending) := p.courseBeside runs none w

end Progress

/-- What becomes of a thread after a turn. -/
def Turn.course : Turn → Course (Return Ending)
  | goes p w => p.course runs w
  | sleeps due p w => .asleep due w (p.course runs)
  | waits g context config unit next t w =>
    (launchAt runs g context config unit ⟨w, t⟩).bind fun r w =>
      (next r.result).courseBeside runs r.late w
  | ended e t w => .ended ⟨e, t, none⟩ w
  | died death w => .died death w

variable {runs}

theorem resumeAll_died (frames : List Frame) (death : Death) (w : World) :
    resumeAll runs frames (.died death w) = .died death w := by
  unfold resumeAll
  induction frames with
  | nil => rfl
  | cons f frames ih => exact ih

theorem resumeAll_asleep (frames : List Frame) (due : Time) (w : World)
    (next : World → Course (Return Ending)) :
    resumeAll runs frames (.asleep due w next) =
      .asleep due w fun v => resumeAll runs frames (next v) := by
  unfold resumeAll
  induction frames generalizing next with
  | nil => rfl
  | cons f frames ih => exact ih fun v => (next v).bind (f.resume runs)

theorem resumeAll_bind {α : Type} (frames : List Frame) (c : Course α)
    (f : α → World → Course (Return Ending)) :
    resumeAll runs frames (c.bind f) = c.bind fun a w => resumeAll runs frames (f a w) := by
  unfold resumeAll
  induction frames generalizing f with
  | nil => rfl
  | cons frame frames ih =>
    show List.foldl _ ((c.bind f).bind (frame.resume runs)) frames = _
    rw [Course.bind_assoc, ih]
    rfl

/-- A call that is answered at once: the script goes on with the answer. -/
theorem Script.activity_call_answered {g : Gate} {callee : Value} {args : List Value}
    {next : Result → Script} {m n : Machine} {result : Result}
    (answered : callAt (launchAt runs) maxDepth g callee args m =
      .ended ⟨.returned result, n.thread, none⟩ n.world) :
    (call callee args next).activity runs g m = (next result).activity runs g n := by
  show Course.bind (callAt (launchAt runs) maxDepth g callee args m) _ = _
  rw [answered]
  rfl

/-- A script that makes one call and ends with its answer comes to what the call comes to. -/
theorem Script.activity_call_finish (g : Gate) (callee : Value) (args : List Value) (m : Machine) :
    (call callee args finish).activity runs g m =
      callAt (launchAt runs) maxDepth g callee args m := by
  show Course.bind _ _ = _
  conv => rhs; rw [← Course.bind_ended (callAt (launchAt runs) maxDepth g callee args m)]
  congr 1
  funext r w
  obtain ⟨result, thread, late⟩ := r
  cases result <;> cases late <;> rfl

/-- The evaluator answers a call as the decision about it says. -/
theorem Script.course_call (g : Gate) (frames : List Frame) (callee : Value) (args : List Value)
    (next : Result → Script) (m : Machine) :
    resumeAll runs frames ((call callee args next).activity runs g m) =
      ((call callee args next).turn g frames m).course runs := by
  have decided : callAt (launchAt runs) maxDepth g callee args m =
      (g.decision callee args m).carryOut (fun s => s.activity runs g) callee args
        (m.afterCheck g.budget) := by
    rw [callAt_maxDepth fun c => launchAt_obeys runs, Gate.checkedCall_eq_carryOut]
    rfl
  show _ = Turn.course runs
    ((g.decision callee args m).turn g frames callee args next (m.afterCheck g.budget))
  cases decision : g.decision callee args m with
  | refuse fault =>
    rw [decision] at decided
    exact congrArg (resumeAll runs frames) (activity_call_answered decided)
  | lacking missing held resource =>
    rw [decision] at decided
    exact congrArg (resumeAll runs frames) (activity_call_answered decided)
  | primitive method receiver =>
    rw [decision] at decided
    exact congrArg (resumeAll runs frames) (activity_call_answered decided)
  | enter receiver body =>
    rw [decision] at decided
    show resumeAll runs frames (Course.bind (callAt (launchAt runs) maxDepth g callee args m) _) = _
    rw [decided]
    rfl

/-- **The evaluator does what the thread does, turn by turn.** -/
theorem Progress.course_turn (runs : Nat) (p : Progress) (w : World) :
    p.course runs w = (p.turn w).course runs := by
  obtain ⟨focus, frames, t⟩ := p
  cases focus with
  | ending e =>
    cases frames with
    | nil => rfl
    | cons f frames =>
      cases f with
      | awaits g next => cases e <;> rfl
      | call => rfl
      | activation context previous => rfl
  | script g s =>
    cases s with
    | call callee args next => exact Script.course_call g frames callee args next ⟨w, t⟩
    | sleep time next =>
      show resumeAll runs frames (Course.later _ w _) = Turn.course runs (if _ then _ else _)
      unfold Course.later
      split
      · rfl
      · exact resumeAll_asleep _ _ _ _
    | launch context config unit next =>
      have keeps := launchAt_obeys runs g context config unit rfl ⟨w, t⟩
      show resumeAll runs frames (Course.bind _ _) = _
      rw [resumeAll_bind]
      refine keeps.bind_congr fun r v kept => ?_
      rw [kept.thread]
      rfl
    | raise signal next =>
      show resumeAll runs frames (match Signal.raise w.spent signal with
          | .ok _ => _
          | .error _ => _) =
        Turn.course runs (match Signal.raise w.spent signal with
          | .ok _ => _
          | .error _ => _)
      cases Signal.raise w.spent signal with
      | ok spent => rfl
      | error death => exact resumeAll_died _ _ _
    | exit status => exact resumeAll_died _ _ _
    | allocate bytes next =>
      show resumeAll runs frames (if w.affords bytes then _ else _) =
        Turn.course runs (if w.affords bytes then _ else _)
      split
      · rfl
      · exact resumeAll_died _ _ _
    | finish | panic | require | find | within | current | revoke | cancel | report => rfl

end Course

/-! ## What a turn does to the thread -/

/-- **`Script.Part part s`** — the script may go on with this part, or it runs it in another
context. -/
inductive Script.Part : Script → Script → Prop
  | call {callee : Value} {args : List Value} {next : Result → Script} (answer : Result) :
      Part (next answer) (.call callee args next)
  | require {c : Capability} {resource operation : String} {next : Except Fault Token → Script}
      (answer : Except Fault Token) : Part (next answer) (.require c resource operation next)
  | find {name : String} {next : Option ContextId → Script} (answer : Option ContextId) :
      Part (next answer) (.find name next)
  | body {context : ContextId} {body : Script} {next : Result → Script} :
      Part body (.within context body next)
  | within {context : ContextId} {body : Script} {next : Result → Script} (answer : Result) :
      Part (next answer) (.within context body next)
  | current {next : Option Lineage → Script} (answer : Option Lineage) :
      Part (next answer) (.current next)
  | revoke {revocation : Revocation} {next : Script} : Part next (.revoke revocation next)
  | cancel {next : Script} : Part next (.cancel next)
  | report {result : Result} {next : Script} : Part next (.report result next)
  | sleep {time : Duration} {next : Script} : Part next (.sleep time next)
  | launch {context : ContextId} {config : Config} {unit : Script} {next : Outcome → Script}
      (outcome : Outcome) : Part (next outcome) (.launch context config unit next)
  | raise {signal : Int} {next : Script} : Part next (.raise signal next)
  | allocate {bytes : Nat} {next : Script} : Part next (.allocate bytes next)

/-- A script is finite along every branch. -/
theorem Script.wellFounded_part : WellFounded Part := by
  refine ⟨fun s => ?_⟩
  induction s with
  | finish | panic | exit => exact ⟨_, fun part h => by cases h⟩
  | call callee args next ih =>
    refine ⟨_, fun part h => ?_⟩
    cases h with
    | call answer => exact ih answer
  | require c resource operation next ih =>
    refine ⟨_, fun part h => ?_⟩
    cases h with
    | require answer => exact ih answer
  | find name next ih =>
    refine ⟨_, fun part h => ?_⟩
    cases h with
    | find answer => exact ih answer
  | within context body next body_ih ih =>
    refine ⟨_, fun part h => ?_⟩
    cases h with
    | body => exact body_ih
    | within answer => exact ih answer
  | current next ih =>
    refine ⟨_, fun part h => ?_⟩
    cases h with
    | current answer => exact ih answer
  | launch context config unit next _ ih =>
    refine ⟨_, fun part h => ?_⟩
    cases h with
    | launch outcome => exact ih outcome
  | revoke _ next ih | cancel next ih | report _ next ih | sleep _ next ih | raise _ next ih
  | allocate _ next ih =>
    refine ⟨_, fun part h => ?_⟩
    cases h
    exact ih

/-- A turn leads to a state and the world in which the thread leaves it, at once or after a wait,
with any outcome of a run. -/
inductive Turn.Leads : Turn → Progress → World → Prop
  | goes {p : Progress} {w : World} : Leads (.goes p w) p w
  | wakes {due : Time} {p : Progress} {w : World} : Leads (.sleeps due p w) p w
  | answered {g : Gate} {context : ContextId} {config : Config} {unit : Script}
      {next : Outcome → Progress} {t : Thread} {w : World} (outcome : Outcome) :
      Leads (.waits g context config unit next t w) (next outcome) w

/-- Where a thread may stand after a turn of a script. -/
inductive Script.Shape (g : Gate) (frames : List Frame) (m : Machine) (s : Script) :
    Progress → Prop
  | goesOn {part : Script} : part.Part s → Shape g frames m s ⟨.script g part, frames, m.thread⟩
  | ends (e : Ending) : Shape g frames m s ⟨.ending e, frames, m.thread⟩
  | enters {callee receiver : Value} {args : List Value} {next : Result → Script} {body : Body} :
      s = .call callee args next → g.decision callee args m = .enter receiver body →
      Shape g frames m s
        ⟨.script g (body receiver args), .call :: .awaits g next :: frames, m.enter.thread⟩
  | activates {context : ContextId} {body : Script} {next : Result → Script} :
      s = .within context body next →
      Shape g frames m s
        ⟨.script g body, .activation context m.thread.register :: .awaits g next :: frames,
          (m.activate context none).thread⟩

/-- **What a turn of a script does to the thread**: it goes on with a part of the script, or ends
it, within the same frames; only a call that enters a body and an activation push frames. -/
theorem Script.turn_shape {g : Gate} {frames : List Frame} {m : Machine} {s : Script} {q : Progress}
    {v : World} (leads : (s.turn g frames m).Leads q v) : s.Shape g frames m q := by
  cases s with
  | finish result | panic message =>
    cases leads
    exact .ends _
  | call callee args next =>
    change ((g.decision callee args m).turn g frames callee args next _).Leads q v at leads
    cases decided : g.decision callee args m with
    | enter receiver body =>
      rw [decided] at leads
      cases leads
      exact .enters rfl decided
    | refuse | lacking | primitive =>
      rw [decided] at leads
      cases leads
      exact .goesOn (.call _)
  | require c resource operation next =>
    have thread := (g.coveringToken_evolves c resource operation m).2
    change (Machine.goOn (g.coveringToken c resource operation m).2 g frames _).Leads q v at leads
    cases leads
    rw [thread]
    exact .goesOn (.require _)
  | find name next =>
    cases leads
    exact .goesOn (.find _)
  | within context body next =>
    cases leads
    exact .activates rfl
  | current next =>
    cases leads
    exact .goesOn (.current _)
  | revoke revocation next =>
    cases leads
    exact .goesOn .revoke
  | cancel next =>
    cases leads
    exact .goesOn .cancel
  | report result next =>
    cases leads
    exact .goesOn .report
  | sleep time next =>
    simp only [turn] at leads
    split at leads <;> cases leads <;> exact .goesOn .sleep
  | launch context config unit next =>
    cases leads
    exact .goesOn (.launch _)
  | raise signal next =>
    simp only [turn] at leads
    split at leads <;> cases leads
    exact .goesOn .raise
  | exit status => cases leads
  | allocate bytes next =>
    simp only [turn] at leads
    split at leads <;> cases leads
    exact .goesOn .allocate

/-- Where a thread may stand after something has ended. -/
inductive Ending.Shape : Ending → Thread → List Frame → Progress → Prop
  | answers {g : Gate} {next : Result → Script} {frames : List Frame} {t : Thread}
      (result : Result) :
      Shape (.returned result) t (.awaits g next :: frames) ⟨.script g (next result), frames, t⟩
  | panics {g : Gate} {next : Result → Script} {frames : List Frame} {t : Thread}
      (message : Option String) :
      Shape (.panicked message) t (.awaits g next :: frames)
        ⟨.ending (.panicked message), frames, t⟩
  | leaves {e : Ending} {frames : List Frame} {t : Thread} :
      Shape e t (.call :: frames) ⟨.ending e, frames, { t with depth := t.depth - 1 }⟩
  | restores {e : Ending} {context : ContextId} {previous : Register} {frames : List Frame}
      {t : Thread} :
      Shape e t (.activation context previous :: frames)
        ⟨.ending e, frames, { t with register := previous }⟩

/-- **What happens when something has ended**: the innermost frame is popped. -/
theorem Ending.turn_shape {e : Ending} {frames : List Frame} {m : Machine} {q : Progress}
    {v : World} (leads : (e.turn m frames).Leads q v) : e.Shape m.thread frames q := by
  cases frames with
  | nil => cases leads
  | cons f frames =>
    cases f with
    | awaits g next =>
      cases e with
      | returned result =>
        cases leads
        exact .answers result
      | panicked message =>
        cases leads
        exact .panics message
    | call =>
      cases leads
      exact .leaves
    | activation context previous =>
      cases leads
      exact .restores

/-! ## A thread among others -/

/-- What a thread has to reckon with: the gates that bodies may have at hand besides the one that
they are given, and what others may do to the world between two turns. -/
structure Surroundings where
  gates : Gate → Prop
  others : World → World → Prop

namespace Progress

/-- **`Moves around x y`** — a turn of the thread, through its own gate or another one at hand, and
what others then do. -/
inductive Moves (around : Surroundings) : Progress × World → Progress × World → Prop
  | own {p q : Progress} {w v u : World} :
      (p.turn w).Leads q v → around.others v u → Moves around (p, w) (q, u)
  | through {h : Gate} {p q : Progress} {w v u : World} :
      around.gates h → ((p.through h).turn w).Leads q v → around.others v u →
      Moves around (p, w) (q, u)

/-- **`Reaches around x y`** — any number of turns. -/
def Reaches (around : Surroundings) : Progress × World → Progress × World → Prop :=
  Relation.ReflTransGen (Moves around)

/-- What every turn keeps is kept by any number of them. -/
theorem Reaches.keeps {around : Surroundings} {P : Progress × World → Prop} {x y : Progress × World}
    (reaches : Reaches around x y) (step : ∀ x y, Moves around x y → P x → P y) (start : P x) :
    P y := by
  induction reaches with
  | refl => exact start
  | tail _ moves ih => exact step _ _ moves ih

/-- The calls in progress within frames. -/
def callsWithin : List Frame → Nat
  | [] => 0
  | .call :: frames => callsWithin frames + 1
  | .awaits _ _ :: frames => callsWithin frames
  | .activation _ _ :: frames => callsWithin frames

/-- The gate calls in progress on the thread since it has begun. -/
def callsInProgress (p : Progress) : Nat := callsWithin p.frames

/-- A thread that has neither ended nor died has a next turn. -/
theorem turn_leads (p : Progress) (w : World) :
    (∃ q v, (p.turn w).Leads q v) ∨ (∃ e t v, p.turn w = .ended e t v) ∨
      ∃ death v, p.turn w = .died death v := by
  cases p.turn w with
  | goes q v => exact .inl ⟨q, v, .goes⟩
  | sleeps due q v => exact .inl ⟨q, v, .wakes⟩
  | waits g context config unit next t v => exact .inl ⟨next noThread, v, .answered noThread⟩
  | ended e t v => exact .inr (.inl ⟨e, t, v, rfl⟩)
  | died death v => exact .inr (.inr ⟨death, v, rfl⟩)

end Progress

end CapabilityGate
