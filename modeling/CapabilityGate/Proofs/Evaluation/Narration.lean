import CapabilityGate.Proofs.Admission.Checkpoint
import CapabilityGate.Proofs.Evaluation.Story
import CapabilityGate.Proofs.Runs.Start

/-!
# Evaluations that are told

A *narrative* is to an activity what a story is to a course. Each function that evaluates has its
narrator, which does the same and tells each call and each question for a token when it is put to the
gate, and each process when it has ended. `Narrative.Tells` says that a narrator does the same, and
`Script.narrate_tells`, `callStoryAt_tells` and `launchStoryAt_tells` say so of all of them. So a
statement about what is told of an evaluation is one about the evaluation itself.
-/
namespace CapabilityGate

/-! ## Narratives -/

/-- What a thread comes to, with the stories of the workers left behind. -/
structure Account (α : Type) where
  result : α
  thread : Thread
  late : Option LateStory

/-- An account without the telling. -/
def Account.back {α : Type} (a : Account α) : Return α :=
  ⟨a.result, a.thread, a.late.map LateStory.late⟩

/-- What a thread does from a state on, and what is to be told of it. -/
abbrev Narrative (α : Type) := Machine → Story (Account α)

/-- The work of a thread while others go on in the background. -/
def Story.joined {α : Type} (s : Story (Account α)) : Option LateStory → Story (Account α)
  | none => s
  | some l => (s.beside (some l)).bind fun r w =>
      .ended [] { r.1 with late := LateStory.both r.1.late r.2 } w

namespace Narrative

variable {α β : Type}

/-- Does nothing, and there is nothing to tell. -/
def pure (a : α) : Narrative α := fun m => .ended [] ⟨a, m.thread, none⟩ m.world

def bind (x : Narrative α) (f : α → Narrative β) : Narrative β := fun m =>
  (x m).bind fun r w => (f r.result ⟨w, r.thread⟩).joined r.late

def andThen (x : Narrative Ending) (f : Result → Narrative Ending) : Narrative Ending :=
  x.bind fun
    | .returned result => f result
    | .panicked message => pure (.panicked message)

/-- Has a context active meanwhile. -/
def activated (x : Narrative α) (context : ContextId) (revocation : Option Revocation) :
    Narrative α := fun m =>
  (x (m.activate context revocation)).bind fun r w =>
    let after := Machine.restore ⟨w, r.thread⟩ context m.thread.register
    .ended [] { r with thread := after.thread } after.world

/-- Counts as a gate call in progress meanwhile. -/
def counted (x : Narrative α) : Narrative α := fun m =>
  (x m.enter).bind fun r w =>
    let after := Machine.leave ⟨w, r.thread⟩
    .ended [] { r with thread := after.thread } after.world

/-- **`x.Tells y`** — the narrative is what the activity does, with something told about it. -/
def Tells (x : Narrative α) (y : Activity α) : Prop := ∀ m, (x m).courseBy Account.back = y m

end Narrative

/-! ## Narrators -/

/-- The story of a decision that is carried out. -/
def Decision.narrate (narrate : Script → Narrative Ending) (callee : Value) (args : List Value) :
    Decision → Narrative Ending
  | refuse fault => Narrative.pure (.returned (.error fault))
  | lacking missing held resource => fun m =>
    .ended [] ⟨.returned (.error (.capability callee.symbol missing held)), m.thread, none⟩
      { m.world with
        log := m.world.log.extend
          (denialRecords missing resource callee.symbol m.world.clock) }
  | enter receiver body =>
    Narrative.counted fun m => narrate (body receiver args) (m.noteEntry callee true)
  | primitive method receiver => fun m =>
    .ended [] ⟨.returned ((method.apply receiver args).mapError Misuse.fault), m.thread, none⟩
      (m.enter.noteEntry callee false).world

/-- The story of a call: that it is made, and what the decision about it comes to. -/
def Gate.narrateCall (g : Gate) (narrate : Script → Narrative Ending) (callee : Value)
    (args : List Value) : Narrative Ending := fun m =>
  ((g.decision callee args m).narrate narrate callee args (m.afterCheck g.budget)).tell
    [.call g m callee args]

/-- How calls are told. -/
abbrev CallStories := Gate → Value → List Value → Narrative Ending

/-- How launches are told. -/
abbrev LaunchStories := Gate → ContextId → Config → Script → Narrative Outcome

/-- **`s.narrate calls launches g`** — the story of a script that is evaluated. -/
def Script.narrate (calls : CallStories) (launches : LaunchStories) (g : Gate) :
    Script → Narrative Ending
  | finish result => Narrative.pure (.returned result)
  | panic message => Narrative.pure (.panicked message)
  | call callee args next =>
    (calls g callee args).andThen fun result => narrate calls launches g (next result)
  | require c resource operation next => fun m =>
    let (answer, after) := g.coveringToken c resource operation m
    (narrate calls launches g (next answer) after).tell [.require g m c resource operation]
  | find name next => fun m => narrate calls launches g (next (m.world.context? name)) m
  | within context body next =>
    (Narrative.activated (narrate calls launches g body) context none).andThen fun result =>
      narrate calls launches g (next result)
  | current next => fun m => narrate calls launches g (next m.visible) m
  | revoke revocation next => fun m =>
    narrate calls launches g next (m.change (·.revoke revocation))
  | cancel next => fun m => narrate calls launches g next (m.change World.cancelHost)
  | report result next => fun m => narrate calls launches g next (m.change (·.report result))
  | sleep time next => fun m =>
    .later (m.world.clock + time.nanos) m.world fun w =>
      narrate calls launches g next { m with world := w }
  | launch context config unit next =>
    (launches g context config unit).bind fun outcome => narrate calls launches g (next outcome)
  | raise signal next => fun m =>
    match Signal.raise m.world.spent signal with
    | .ok spent => narrate calls launches g next (m.change fun w => { w with spent })
    | .error death => .died [] death m.world
  | exit status => fun m => .died [] (.exit status) m.world
  | allocate bytes next => fun m =>
    if m.world.affords bytes then narrate calls launches g next m
    else .died [] (.signal Signal.abort) m.world

/-- The stories of calls with at most `room` more calls nested in them. -/
def callStoryAt (launches : LaunchStories) : Nat → CallStories
  | 0 => fun g => g.narrateCall fun _ => Narrative.pure (.returned (.error depthFault))
  | room + 1 => fun g => g.narrateCall fun s => s.narrate (callStoryAt launches room) launches g

/-! ## Narrators of runs -/

namespace ThreadRun

/-- The story of what is left of an abandoned run. -/
def restStory (r : ThreadRun) (due : Time) (next : World → Story (Account Ending)) : LateStory :=
  ⟨due, fun w => (next w).bind fun x w => LateStory.storyOf x.late (r.returned w)⟩

/-- The story of a caller who waits for a worker until the deadline. -/
def watchStory (r : ThreadRun) (caller : Thread) (worker : Story (Account Ending)) :
    Story (Account Outcome) :=
  worker.race r.deadline
    (fun x w => .ended [] ⟨x.result.outcome ⟨w.clock - r.start⟩, caller, x.late⟩ (r.closed w))
    (fun due next w =>
      .ended [] ⟨timedOut r.config r.config.timeout, caller, some (r.restStory due next)⟩
        (r.abandoned w))

end ThreadRun

section Runs

variable (narrate : Gate → Script → Narrative Ending) (g : Gate) (context : ContextId)
  (config : Config) (unit : Script)

def narrateOnThread : Narrative Outcome := fun m =>
  let run := ThreadRun.next m.world context config
  run.watchStory m.thread
    ((narrate (g.forRun m) unit).activated run.effective (some run.switch)
      ⟨run.opened m.world, .initial⟩)

/-- The story that goes on in the worker process of a run. -/
def workerStory : Narrative Ending := fun m =>
  let copy := (heldForRun m.world context config).fork config.memory
  (narrate (g.forRun m) unit).activated (runContext m.world context config) none
    ⟨copy.addBudget (config.deadline m.world.clock), m.thread⟩

/-- How a worker process of a run ends, as its caller reads it. -/
def workerOutcome (start : Time) (processEnd : ProcessEnd) : Outcome × List Record :=
  processEnd.outcome config ⟨processEnd.time - start⟩

/-- The story of a run in a process. The caller hears nothing of the process until it has ended. -/
def narrateInProcess : Narrative Outcome := fun m =>
  let deadline := config.deadline m.world.clock
  let worker := workerStory narrate g context config unit m
  let (processEnd, entries) := ProcessEnd.ofCourse deadline (worker.courseBy Account.back)
  let (outcome, violations) := workerOutcome config m.world.clock processEnd
  let told := (worker.goOn fun due _ => deadline ≤ due).told
  .later processEnd.time (heldForRun m.world context config) fun w =>
    .ended [.process told !violations.isEmpty] ⟨outcome, m.thread, none⟩
      (afterProcess (runContext m.world context config) context violations entries w)

def narrateRun : Narrative Outcome :=
  match config.validate with
  | .error e => Narrative.pure (refusedSettings e)
  | .ok () =>
    match config.isolation with
    | .thread => narrateOnThread narrate g context config unit
    | .process => narrateInProcess narrate g context config unit

end Runs

/-- The stories of launches with at most `fuel` runs nested in one another. -/
def launchStoryAt : Nat → LaunchStories
  | 0 => fun _ _ _ _ => Narrative.pure noThread
  | fuel + 1 =>
    narrateRun fun g s => s.narrate (callStoryAt (launchStoryAt fuel) maxDepth) (launchStoryAt fuel) g

/-! ## Narrators do what they tell of -/

namespace Narrative

variable {α β : Type} {x : Narrative α} {y : Activity α}

theorem tells_pure (a : α) : (pure a).Tells (Activity.pure a) :=
  fun _ => rfl

theorem courseBy_joined {s : Story (Account α)} (late : Option LateStory) :
    (s.joined late).courseBy Account.back =
      (s.courseBy Account.back).joined (late.map LateStory.late) := by
  cases late with
  | none => rfl
  | some l =>
    show (Story.bind _ _).courseBy _ = Course.bind (Course.beside _ ((some l).map _)) _
    rw [← Story.courseBy_beside]
    refine Story.courseBy_bind _ fun r w => ?_
    show Course.ended (Return.mk _ _ ((LateStory.both r.1.late r.2).map LateStory.late)) w = _
    rw [LateStory.late_both]
    rfl

theorem Tells.bind (hx : x.Tells y) {f : α → Narrative β} {k : α → Activity β}
    (hf : ∀ a, (f a).Tells (k a)) : (x.bind f).Tells (y.bind k) := by
  intro m
  unfold Narrative.bind Activity.bind
  rw [← hx m]
  refine Story.courseBy_bind _ fun r w => ?_
  rw [courseBy_joined, hf]
  rfl

theorem Tells.andThen {x : Narrative Ending} {y : Activity Ending} (hx : x.Tells y)
    {f : Result → Narrative Ending} {k : Result → Activity Ending} (hf : ∀ r, (f r).Tells (k r)) :
    (x.andThen f).Tells (y.andThen k) := by
  refine hx.bind fun ending => ?_
  cases ending with
  | returned result => exact hf result
  | panicked message => exact tells_pure _

theorem Tells.activated (hx : x.Tells y) (context : ContextId) (revocation : Option Revocation) :
    (x.activated context revocation).Tells (y.activated context revocation) := by
  intro m
  unfold Narrative.activated Activity.activated
  rw [← hx]
  exact Story.courseBy_bind _ fun r w => rfl

theorem Tells.counted (hx : x.Tells y) : x.counted.Tells y.counted := by
  intro m
  unfold Narrative.counted Activity.counted
  rw [← hx]
  exact Story.courseBy_bind _ fun r w => rfl

end Narrative

/-! ## Calls and scripts -/

theorem Gate.narrateCall_tells (g : Gate) {narrate : Script → Narrative Ending}
    {run : Script → Activity Ending} (h : ∀ s, (narrate s).Tells (run s)) (callee : Value)
    (args : List Value) :
    (g.narrateCall narrate callee args).Tells (g.checkedCall run callee args) := by
  intro m
  rw [g.checkedCall_eq_carryOut, narrateCall, Story.courseBy_tell]
  -- Only a body that is entered goes on, and its narrator tells what it does.
  cases g.decision callee args m with
  | enter receiver body =>
    have entered : Narrative.Tells (fun m => narrate (body receiver args) (m.noteEntry callee true))
        (fun m => run (body receiver args) (m.noteEntry callee true)) :=
      fun m => h _ _
    exact entered.counted _
  | refuse | lacking | primitive => rfl

section Scripts

variable {calls : Calls} {launches : Launches} {callStories : CallStories}
  {launchStories : LaunchStories}

/-- Each of these launches is told. -/
def LaunchStories.Tell (launchStories : LaunchStories) (launches : Launches) : Prop :=
  ∀ g context config unit,
    (launchStories g context config unit).Tells (launches g context config unit)

theorem Script.narrate_tells (hlaunches : launchStories.Tell launches) (g : Gate)
    (hcalls : ∀ callee args, (callStories g callee args).Tells (calls g callee args)) (s : Script) :
    (s.narrate callStories launchStories g).Tells (s.evaluate calls launches g) := by
  induction s with
  | finish result => exact Narrative.tells_pure _
  | panic message => exact Narrative.tells_pure _
  | call callee args next ih => exact (hcalls callee args).andThen ih
  | require c resource operation next ih =>
    intro m
    unfold narrate evaluate
    rw [Story.courseBy_tell]
    exact ih _ _
  | find name next ih => exact fun m => ih _ m
  | within context body next ihbody ih => exact (ihbody.activated context none).andThen ih
  | current next ih => exact fun m => ih _ m
  | revoke | cancel | report =>
    rename_i ih
    exact fun m => ih _
  | sleep time next ih => exact fun m => Story.courseBy_later fun w => ih _
  | launch context config unit next ihunit ih => exact (hlaunches g context config unit).bind ih
  | raise signal next ih =>
    intro m
    unfold narrate evaluate
    cases Signal.raise m.world.spent signal with
    | ok spent => exact ih _
    | error death => rfl
  | exit status => exact fun m => rfl
  | allocate bytes next ih =>
    intro m
    unfold narrate evaluate
    split
    · exact ih m
    · rfl

theorem callStoryAt_tells (hlaunches : launchStories.Tell launches) (room : Nat) (g : Gate)
    (callee : Value) (args : List Value) :
    (callStoryAt launchStories room g callee args).Tells (callAt launches room g callee args) := by
  -- On the number of calls that may still be nested in this one.
  induction room generalizing callee args with
  | zero => exact g.narrateCall_tells (fun _ => Narrative.tells_pure _) callee args
  | succ room ih => exact g.narrateCall_tells (fun s => s.narrate_tells hlaunches g ih) callee args

end Scripts

/-! ## Runs -/

theorem ThreadRun.courseBy_watchStory (r : ThreadRun) (caller : Thread)
    (worker : Story (Account Ending)) :
    (r.watchStory caller worker).courseBy Account.back =
      r.watch caller (worker.courseBy Account.back) := by
  refine Story.courseBy_race _ (fun x w => rfl) fun due next w => ?_
  refine congrArg (fun l => Course.ended (Return.mk _ _ (some l)) _) ?_
  refine congrArg (Late.mk due) (funext fun w => ?_)
  exact Story.courseBy_bind _ fun x w => LateStory.courseBy_storyOf x.late _

section Runs

variable {narrate : Gate → Script → Narrative Ending} {evaluate : Gate → Script → Activity Ending}
  (h : ∀ g s, (narrate g s).Tells (evaluate g s)) (g : Gate) (context : ContextId) (config : Config)
  (unit : Script)
include h

theorem narrateOnThread_tells :
    (narrateOnThread narrate g context config unit).Tells
      (runOnThread evaluate g context config unit) := by
  intro m
  have work := (h (g.forRun m) unit).activated
    (ThreadRun.next m.world context config).effective
    (some (ThreadRun.next m.world context config).switch)
  exact (ThreadRun.courseBy_watchStory _ _ _).trans (congrArg (ThreadRun.watch _ _) (work _))

theorem narrateInProcess_tells :
    (narrateInProcess narrate g context config unit).Tells
      (runInProcess evaluate g context config unit) := by
  intro m
  have work := (h (g.forRun m) unit).activated (runContext m.world context config) none
    ⟨((heldForRun m.world context config).fork config.memory).addBudget
      (config.deadline m.world.clock), m.thread⟩
  unfold narrateInProcess workerStory runInProcess
  dsimp only
  rw [work]
  exact Story.courseBy_later fun w => rfl

theorem narrateRun_tells :
    (narrateRun narrate g context config unit).Tells (run evaluate g context config unit) := by
  unfold narrateRun run
  cases config.validate with
  | error e => exact Narrative.tells_pure _
  | ok _ =>
    cases config.isolation with
    | thread => exact narrateOnThread_tells h g context config unit
    | process => exact narrateInProcess_tells h g context config unit

end Runs

theorem launchStoryAt_tells (fuel : Nat) : (launchStoryAt fuel).Tell (launchAt fuel) := by
  -- On the number of runs that may be nested; a unit is told with launches of one less.
  induction fuel with
  | zero => exact fun g context config unit => Narrative.tells_pure _
  | succ fuel ih =>
    intro g context config unit
    refine narrateRun_tells (fun g s => ?_) g context config unit
    exact s.narrate_tells ih g (callStoryAt_tells ih maxDepth g)

end CapabilityGate
